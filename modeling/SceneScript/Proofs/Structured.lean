import SceneScript.Proofs.Runs

/-! # Structured programs

`Block` is the language of conditionals that life scripts are written in: commands of the game, and
blocks under a guard, with or without another part, nested as deep as one likes. A guard is one
test, or a chain of tests of which any or all must pass.

* `Block.commands` lays a program out, with jumps for the blocks: the last test of a guard leaves
  the block, a test of a chain leaves it or enters it early, and the first part of a block with two
  ends in a jump over the second.
* `Block.script` is the script of a program: its commands and an END, in bytes.
* `Block.act` is what a program does to a game, told without jumps. Tests are asked from left to
  right, and only until the guard is decided. -/

namespace SceneScript

/-! ### Programs -/

/-- One test of a guard: a condition and the comparison its value is put to. -/
structure Clause where
  condition : Condition
  test : Test

/-- The guard of a block: a chain of tests and a last one, of which one must pass or all. -/
structure Guard where
  anyOf : Bool
  chain : List Clause
  last : Clause

/-- A command left to the game. -/
structure GameCommand where
  opcode : Opcode
  args : List Argument

/-- A structured program. -/
inductive Block where
  | done
  | call (c : GameCommand) (rest : Block)
  | ifThen (guard : Guard) (body rest : Block)
  | ifElse (guard : Guard) (body other rest : Block)

/-! ### Programs of a scene -/

/-- An argument that names an actor or a point names one of the scene. -/
def Argument.InScene (layout : Layout) (a : Argument) : Prop :=
  match a.value, a.slot.role with
  | .number n, .actor => 0 ≤ n ∧ n.toNat < layout.actorCount
  | .number n, .point => 0 ≤ n ∧ n.toNat < layout.pointCount
  | _, _ => True

/-- A test as the standard catalog lays it out, about an actor of the scene if about one. -/
structure Clause.InScene (layout : Layout) (c : Clause) : Prop where
  condition : c.condition.Conforms .standard
  test : c.test.Conforms .standard c.condition.predicate
  param : ∀ a ∈ c.condition.param, a.InScene layout

/-- A guard whose tests are of the scene. -/
def Guard.InScene (layout : Layout) (g : Guard) : Prop :=
  (∀ c ∈ g.chain, c.InScene layout) ∧ g.last.InScene layout

/-- A command as the standard catalog lays it out for life scripts, with actors and points of the
scene. -/
structure GameCommand.InScene (layout : Layout) (c : GameCommand) : Prop where
  opcode : Catalog.standard.opcode? .life c.opcode.code = some c.opcode
  hosted : c.opcode.operation.isHosted = true
  conform : ArgumentsConform c.opcode c.args
  args : ∀ a ∈ c.args, a.InScene layout

/-- A program all of whose commands and tests are of the scene. -/
def Block.InScene (layout : Layout) : Block → Prop
  | .done => True
  | .call c rest => c.InScene layout ∧ rest.InScene layout
  | .ifThen guard body rest =>
    guard.InScene layout ∧ body.InScene layout ∧ rest.InScene layout
  | .ifElse guard body other rest =>
    guard.InScene layout ∧ body.InScene layout ∧ other.InScene layout ∧ rest.InScene layout

/-! ### Layout -/

/-- The opcode of the standard catalog for an operation of life scripts. -/
@[irreducible] def opcodeOf (o : Operation) : Opcode := Catalog.standard.marker o

/-- A test as a command: a jump to `target`, taken as the operation says. -/
def Clause.command (c : Clause) (o : Operation) (start target : Nat) : Command where
  opcode := opcodeOf o
  args := [⟨.jump, .number target⟩]
  condition := some c.condition
  test := some c.test
  offset := some start

def GameCommand.command (c : GameCommand) (start : Nat) : Command where
  opcode := c.opcode
  args := c.args
  offset := some start

/-- The jump over the second part of a block. -/
def elseCommand (start target : Nat) : Command where
  opcode := opcodeOf .elseThen
  args := [⟨.jump, .number target⟩]
  offset := some start

def endCommand (start : Nat) : Command where
  opcode := opcodeOf .finish
  offset := some start

def Clause.size (c : Clause) : Nat := 1 + (c.condition.bytes.length + c.test.bytes.length) + 2

def GameCommand.size (c : GameCommand) : Nat := 1 + (c.args.flatMap Argument.bytes).length

def chainSize (last : Clause) : List Clause → Nat
  | [] => last.size
  | c :: rest => c.size + chainSize last rest

def Guard.size (g : Guard) : Nat := chainSize g.last g.chain

/-- The bytes of a program. A jump over the second part of a block has three. -/
def Block.size : Block → Nat
  | .done => 0
  | .call c rest => c.size + rest.size
  | .ifThen guard body rest => guard.size + body.size + rest.size
  | .ifElse guard body other rest => guard.size + body.size + 3 + other.size + rest.size

/-- The tests of a chain and the last one, from an offset on: any test that passes leads to `body`
at once, or any that fails to `exit`; the last one leads to `exit` if it fails. -/
def chainCommands (anyOf : Bool) (body exit : Nat) (last : Clause) :
    List Clause → Nat → List Command
  | [], start => [last.command .ifThen start exit]
  | c :: rest, start =>
    (if anyOf then c.command .orIf start body else c.command .andIf start exit) ::
      chainCommands anyOf body exit last rest (start + c.size)

/-- A guard from an offset on, in front of its block and with its exit. -/
def Guard.commands (g : Guard) (start exit : Nat) : List Command :=
  chainCommands g.anyOf (start + g.size) exit g.last g.chain start

def Block.commands : Block → Nat → List Command
  | .done, _ => []
  | .call c rest, start => c.command start :: rest.commands (start + c.size)
  | .ifThen guard body rest, start =>
    let inner := start + guard.size
    let after := inner + body.size
    guard.commands start after ++ (body.commands inner ++ rest.commands after)
  | .ifElse guard body other rest, start =>
    let inner := start + guard.size
    let second := inner + body.size + 3
    let after := second + other.size
    guard.commands start second ++ (body.commands inner ++
      elseCommand (inner + body.size) after :: (other.commands second ++ rest.commands after))

/-- The commands of the script of a program. -/
def Block.all (b : Block) : List Command := b.commands 0 ++ [endCommand b.size]

/-- The script of a program. -/
def Block.script (b : Block) : List UInt8 := b.all.flatMap Command.bytes

/-- The jump targets of a command. -/
def Command.jumps (c : Command) : List Int :=
  c.args.filterMap fun a => if a.slot.role = .offset then a.value.number? else none

/-! ### What programs do -/

/-- What a program is acted out in front of: the game, and everything the game is told about the
script and its actors. States and scratch records are those before the run, and `index` gives the
instruction at a byte offset. -/
structure Stage (σ : Type) where
  host : Host σ
  script : ScriptId
  time : FrameTime
  states : Array ActorState
  memory : Memory
  index : Nat → Nat

/-- An argument as the game sees it. -/
def Argument.bound (a : Argument) : Operand :=
  match a.value, a.slot.role with
  | .number n, .actor => .actor n.toNat
  | .number n, .point => .point n.toNat
  | .number n, _ => .number n
  | .text s, _ => .text s
  | .target t, _ => .target t
  | .unresolved n, _ => .unresolved n

namespace Stage

variable {σ : Type}

/-- The state of a script in its first behavior, at an instruction. -/
def busy (k : Nat) (s : ScriptState) : ScriptState :=
  { s with offset := k, running := true, reentry := none, behaviorOffset := some 0 }

/-- The states of the actor whose script is at an instruction. -/
def caller (g : Stage σ) (k : Nat) : ActorState :=
  (g.states.getD g.script.actor {}).modify g.script.kind (busy k)

/-- The question that a condition at an offset puts to the game. -/
def query (g : Stage σ) (start : Nat) (k : Condition) : HostQuery where
  script := g.script
  predicate := k.predicate
  param := k.param.map Argument.bound
  time := g.time
  actor := g.caller (g.index start)

/-- The value of a condition at an offset: a track that is active, or the answer of the game. -/
def ask (g : Stage σ) (start : Nat) (k : Condition) (h : σ) : Int × σ :=
  match k.predicate.source with
  | .ownTrack => (Step.currentTrack (g.states.getD g.script.actor {}), h)
  | .actorTrack =>
    let named := (k.param.bind fun a => a.value.number?).getD 0
    (Step.currentTrack (g.states.getD named.toNat {}), h)
  | .host =>
    let reply := g.host.evaluate (g.query start k) h
    (reply.1.toOption.getD 0, reply.2)

/-- Whether a test at an offset passes. -/
def passes (g : Stage σ) (start : Nat) (c : Clause) (h : σ) : Bool × σ :=
  let answer := g.ask start c.condition h
  (c.test.operator.comparison.test answer.1 (c.test.operand.value.number?.getD 0), answer.2)

/-- Whether a guard at an offset lets its block run: the first test of the chain that decides it,
else the last test. -/
def decide (g : Stage σ) (anyOf : Bool) (last : Clause) : List Clause → Nat → σ → Bool × σ
  | [], start, h => g.passes start last h
  | c :: rest, start, h =>
    let answer := g.passes start c h
    if answer.1 = anyOf then (anyOf, answer.2)
    else g.decide anyOf last rest (start + c.size) answer.2

/-- The order that a command at an offset is to the game. -/
def order (g : Stage σ) (start : Nat) (c : GameCommand) : HostCall where
  script := g.script
  opcode := c.opcode
  offset := g.index start
  callState := if c.opcode.needsCallState then some (g.memory.callState (g.index start)) else none
  condition := none
  passed := none
  operands := c.args.map Argument.bound
  time := g.time
  actor := g.caller (g.index start)

def tell (g : Stage σ) (start : Nat) (c : GameCommand) (h : σ) : σ :=
  (g.host.execute (g.order start c) h).2

end Stage

/-- What a program does to the game, from an offset on. -/
def Block.act {σ : Type} (g : Stage σ) : Block → Nat → σ → σ
  | .done, _, h => h
  | .call c rest, start, h => rest.act g (start + c.size) (g.tell start c h)
  | .ifThen guard body rest, start, h =>
    let inner := start + guard.size
    let answer := g.decide guard.anyOf guard.last guard.chain start h
    rest.act g (inner + body.size) (if answer.1 then body.act g inner answer.2 else answer.2)
  | .ifElse guard body other rest, start, h =>
    let inner := start + guard.size
    let second := inner + body.size + 3
    let answer := g.decide guard.anyOf guard.last guard.chain start h
    rest.act g (second + other.size)
      (if answer.1 then body.act g inner answer.2 else other.act g second answer.2)

/-! ### The opcodes of a layout -/

theorem opcodeOf_elseThen : opcodeOf .elseThen = .engine 0x0F "ELSE" .elseThen [.jump] := by
  decide +kernel

theorem opcodeOf_finish : opcodeOf .finish = .engine 0x00 "END" .finish [] := by
  decide +kernel

/-- The operations that a layout is made of, besides those of the game. -/
def layoutOperations : List Operation := [.ifThen, .orIf, .andIf, .elseThen, .finish]

def testOperations : List Operation := [.ifThen, .orIf, .andIf]

theorem opcode?_opcodeOf : ∀ o ∈ layoutOperations,
    Catalog.standard.opcode? .life (opcodeOf o).code = some (opcodeOf o) := by
  decide +kernel

theorem testOperations_subset {o : Operation} (h : o ∈ testOperations) : o ∈ layoutOperations := by
  revert h
  cases o <;> decide

/-- What tests have in common, whatever way they jump. -/
theorem opcodeOf_test : ∀ o ∈ testOperations,
    (opcodeOf o).operation = o ∧ (opcodeOf o).slots = [.jump] ∧ (opcodeOf o).argsFirst = false ∧
      (opcodeOf o).hasCondition = true ∧ (opcodeOf o).hasOperator = true ∧
      (opcodeOf o).needsCallState = false ∧ (opcodeOf o).code ≠ 0 := by
  decide +kernel

example : testOperations.map (fun o => (opcodeOf o).name) = ["IF", "OR_IF", "AND_IF"] := by
  decide +kernel

/-- What commands of the game have in common. -/
theorem standardLife_hosted : Catalog.standardLife.toList.all (fun d =>
    !d.operation.isHosted || (!d.hasCondition && !d.hasOperator && d.code != 0 &&
      d.slots.all fun s => s.role != .offset)) = true := by
  decide +kernel

/-- A command of the game has no guard, does not begin with an END's byte and keeps no jump. -/
theorem GameCommand.InScene.plain {layout : Layout} {c : GameCommand} (h : c.InScene layout) :
    c.opcode.hasCondition = false ∧ c.opcode.hasOperator = false ∧ c.opcode.code ≠ 0 ∧
      ∀ s ∈ c.opcode.slots, s.role ≠ .offset := by
  have hmem := Array.mem_toList_iff.mpr (entryAt?_code h.opcode).2
  have hall := List.all_eq_true.mp standardLife_hosted c.opcode hmem
  simp only [h.hosted, Bool.not_true, Bool.false_or, Bool.and_eq_true, Bool.not_eq_true',
    bne_iff_ne, List.all_eq_true] at hall
  exact ⟨hall.1.1.1, hall.1.1.2, hall.1.2, hall.2⟩

/-! ### Lengths and offsets -/

theorem length_bytes_jump (n : Int) : (WireType.bytes .uint16 n).length = 2 := by
  simp [WireType.bytes, WireType.size?]

theorem Clause.length_bytes (c : Clause) {o : Operation} (ho : o ∈ testOperations)
    (start target : Nat) : (c.command o start target).bytes.length = c.size := by
  obtain ⟨-, -, hfirst, -⟩ := opcodeOf_test o ho
  have hjump : Argument.bytes ⟨.jump, .number target⟩ = WireType.bytes .uint16 target := rfl
  simp only [Command.bytes, Clause.command, hfirst, Command.guardBytes, Command.argsBytes,
    Bool.false_eq_true, if_false, List.length_cons, List.length_append, Option.toList_some,
    List.flatMap_cons, List.flatMap_nil, List.append_nil, hjump, length_bytes_jump, Clause.size]
  omega

theorem GameCommand.length_bytes (c : GameCommand) (start : Nat) :
    (c.command start).bytes.length = c.size := by
  simp only [Command.bytes, GameCommand.command, Command.guardBytes, Command.argsBytes,
    Option.toList_none, List.flatMap_nil, List.nil_append, List.append_nil, ite_self,
    List.length_cons, GameCommand.size]
  omega

theorem length_bytes_elseCommand (start target : Nat) :
    (elseCommand start target).bytes.length = 3 := by
  have hjump : Argument.bytes ⟨.jump, .number target⟩ = WireType.bytes .uint16 target := rfl
  simp [Command.bytes, elseCommand, opcodeOf_elseThen, Opcode.engine, Command.guardBytes,
    Command.argsBytes, hjump, length_bytes_jump]

theorem length_bytes_chainCommands (anyOf : Bool) (body exit : Nat) (last : Clause)
    (chain : List Clause) (start : Nat) :
    ((chainCommands anyOf body exit last chain start).flatMap Command.bytes).length =
      chainSize last chain := by
  induction chain generalizing start with
  | nil =>
      simp [chainCommands, chainSize, last.length_bytes (show .ifThen ∈ testOperations by decide)]
  | cons c rest ih =>
      rw [chainCommands, List.flatMap_cons, List.length_append, ih, chainSize]
      cases anyOf with
      | true => rw [if_pos rfl, c.length_bytes (show .orIf ∈ testOperations by decide)]
      | false => rw [if_neg (by decide), c.length_bytes (show .andIf ∈ testOperations by decide)]

/-- A program takes the bytes that its size says. -/
theorem Block.length_bytes_commands (b : Block) (start : Nat) :
    ((b.commands start).flatMap Command.bytes).length = b.size := by
  induction b generalizing start with
  | done => rfl
  | call c rest ih =>
      rw [Block.commands, List.flatMap_cons, List.length_append, c.length_bytes, ih, Block.size]
  | ifThen guard body rest ihbody ihrest =>
      simp only [Block.commands, Guard.commands, List.flatMap_append, List.length_append,
        length_bytes_chainCommands, ihbody, ihrest, Block.size, Guard.size]
      omega
  | ifElse guard body other rest ihbody ihother ihrest =>
      simp only [Block.commands, Guard.commands, List.flatMap_append, List.flatMap_cons,
        List.length_append, length_bytes_chainCommands, length_bytes_elseCommand, ihbody, ihother,
        ihrest, Block.size, Guard.size]
      omega

/-! ### The commands of a layout -/

/-- The commands that layouts are made of, but for the END. -/
inductive Laid (layout : Layout) : Command → Prop
  | test {c : Clause} {o : Operation} (start target : Nat) : c.InScene layout →
      o ∈ testOperations → Laid layout (c.command o start target)
  | call {c : GameCommand} (start : Nat) : c.InScene layout → Laid layout (c.command start)
  | skip (start target : Nat) : Laid layout (elseCommand start target)

theorem laid_chainCommands {layout : Layout} {anyOf : Bool} {body exit : Nat} {last : Clause}
    {chain : List Clause} (hchain : ∀ c ∈ chain, c.InScene layout) (hlast : last.InScene layout)
    (start : Nat) : ∀ c ∈ chainCommands anyOf body exit last chain start, Laid layout c := by
  induction chain generalizing start with
  | nil =>
      intro c hc
      rw [List.mem_singleton.mp hc]
      exact .test start exit hlast (by decide)
  | cons first rest ih =>
      have hfirst := hchain first (by simp)
      rw [chainCommands, List.forall_mem_cons]
      refine ⟨?_, ih (fun c hc => hchain c (List.mem_cons_of_mem first hc)) _⟩
      cases anyOf with
      | true => exact .test start body hfirst (by decide)
      | false => exact .test start exit hfirst (by decide)

theorem Block.laid_commands {layout : Layout} {b : Block} (h : b.InScene layout) (start : Nat) :
    ∀ c ∈ b.commands start, Laid layout c := by
  induction b generalizing start with
  | done => simp [Block.commands]
  | call c rest ih =>
      rw [Block.commands, List.forall_mem_cons]
      exact ⟨.call start h.1, ih h.2 _⟩
  | ifThen guard body rest ihbody ihrest =>
      obtain ⟨⟨hchain, hlast⟩, hbody, hrest⟩ := h
      simp only [Block.commands, List.forall_mem_append]
      exact ⟨laid_chainCommands hchain hlast _, ihbody hbody _, ihrest hrest _⟩
  | ifElse guard body other rest ihbody ihother ihrest =>
      obtain ⟨⟨hchain, hlast⟩, hbody, hother, hrest⟩ := h
      simp only [Block.commands, List.forall_mem_append, List.forall_mem_cons]
      exact ⟨laid_chainCommands hchain hlast _, ihbody hbody _, .skip _ _, ihother hother _,
        ihrest hrest _⟩

theorem GameCommand.InScene.role_ne {layout : Layout} {c : GameCommand} (h : c.InScene layout) :
    ∀ a ∈ c.args, a.slot.role ≠ .offset := by
  intro a ha
  have hslot := List.mem_map_of_mem (f := Argument.slot) ha
  rw [h.conform.1, List.mem_append] at hslot
  rcases hslot with hslot | hslot
  · exact h.plain.2.2.2 a.slot hslot
  · exact extraSlot?_role_ne (Option.mem_toList.mp hslot)

theorem Clause.jumps_command (c : Clause) (o : Operation) (start target : Nat) :
    (c.command o start target).jumps = [(target : Int)] := rfl

theorem jumps_elseCommand (start target : Nat) : (elseCommand start target).jumps = [(target : Int)] :=
  rfl

theorem GameCommand.InScene.jumps_command {layout : Layout} {c : GameCommand}
    (h : c.InScene layout) (start : Nat) : (c.command start).jumps = [] := by
  rw [Command.jumps, List.filterMap_eq_nil_iff]
  intro a ha
  rw [if_neg (h.role_ne a ha)]

theorem Operation.eq_of_isHosted {o : Operation} (h : o.isHosted = true) :
    o = .setDirMode ∨ o = .setDirModeObj ∨ o = .host := by
  cases o <;> simp_all [Operation.isHosted]

theorem extraSlot?_eq_none {o : Operation} (h : o.isHosted = false) (args : List Argument) :
    extraSlot? o args = none := by
  cases o <;> first | rfl | cases h

theorem argumentsConform_jump {d : Opcode} {target : Nat} (hslots : d.slots = [.jump])
    (hop : d.operation.isHosted = false) (h : target < 65536) :
    ArgumentsConform d [⟨.jump, .number target⟩] := by
  have hfits : Argument.Fits ⟨.jump, .number target⟩ := by
    have hrange : (target : Int) < byteRange 2 := by
      have : byteRange 2 = 65536 := rfl
      omega
    exact ⟨Int.natCast_nonneg target, hrange⟩
  refine ⟨?_, ?_⟩
  · rw [extraSlot?_eq_none hop, hslots]
    rfl
  · intro a ha
    rw [List.mem_singleton.mp ha]
    exact hfits

/-- A command of a layout whose jumps fit is read as it is, wherever it stands. -/
theorem Laid.conforms {layout : Layout} {c : Command} (h : Laid layout c)
    (hjumps : ∀ t ∈ c.jumps, t < 65536) (enclosing : Option Predicate) :
    c.Conforms .standard .life enclosing := by
  cases h with
  | @test c o start target hc ho =>
      obtain ⟨hop, hslots, -, hcond, htest, -⟩ := opcodeOf_test o ho
      have hhosted : ∀ o ∈ testOperations, o.isHosted = false := by decide
      have htarget : target < 65536 := by
        have := hjumps target (by simp [Clause.jumps_command])
        omega
      refine ⟨opcode?_opcodeOf o (testOperations_subset ho), ?_, ?_⟩
      · exact argumentsConform_jump hslots (by rw [Clause.command, hop]; exact hhosted o ho) htarget
      · refine ⟨hcond.symm, ?_, htest.symm, ?_⟩
        · intro k hk
          obtain rfl := Option.some.inj hk
          exact hc.condition
        · intro t ht
          obtain rfl := Option.some.inj ht
          exact ⟨_, rfl, hc.test⟩
  | @call c start hc =>
      obtain ⟨hcond, htest, -, -⟩ := hc.plain
      refine ⟨hc.opcode, hc.conform, ⟨hcond.symm, ?_, htest.symm, ?_⟩⟩
      · intro k hk
        cases hk
      · intro t ht
        cases ht
  | skip start target =>
      have htarget : target < 65536 := by
        have := hjumps target (by simp [jumps_elseCommand])
        omega
      refine ⟨opcode?_opcodeOf .elseThen (by decide), ?_, ?_⟩
      · rw [elseCommand, opcodeOf_elseThen]
        exact argumentsConform_jump rfl rfl htarget
      · rw [elseCommand, opcodeOf_elseThen]
        exact ⟨rfl, by simp, rfl, by simp⟩

theorem conforms_endCommand (start : Nat) (enclosing : Option Predicate) :
    (endCommand start).Conforms .standard .life enclosing := by
  refine ⟨opcode?_opcodeOf .finish (by decide), ?_, ?_⟩
  · rw [endCommand, opcodeOf_finish]
    exact ⟨rfl, by simp⟩
  · rw [endCommand, opcodeOf_finish]
    exact ⟨rfl, by simp, rfl, by simp⟩

theorem Block.conforms_all {layout : Layout} {b : Block} (hb : b.InScene layout)
    (hjumps : ∀ c ∈ b.commands 0, ∀ t ∈ c.jumps, t < 65536) :
    ∀ c ∈ b.all, ∀ enclosing, c.Conforms .standard .life enclosing := by
  rw [Block.all, List.forall_mem_append]
  refine ⟨fun c hc => (b.laid_commands hb 0 c hc).conforms (hjumps c hc), ?_⟩
  intro c hc
  rw [List.mem_singleton.mp hc]
  exact conforms_endCommand b.size

theorem Laid.code_ne_zero {layout : Layout} {c : Command} (h : Laid layout c) :
    c.opcode.code ≠ 0 := by
  cases h with
  | @test c o start target _ ho =>
      obtain ⟨-, -, -, -, -, -, hcode⟩ := opcodeOf_test o ho
      exact hcode
  | call start hc => exact hc.plain.2.2.1
  | skip start target =>
      rw [elseCommand, opcodeOf_elseThen]
      simp [Opcode.engine]

/-- Commands of a layout open no switch and end no behavior. -/
theorem Laid.operation_ne {layout : Layout} {c : Command} (h : Laid layout c) :
    c.opcode.operation ≠ .switch ∧ c.opcode.operation ≠ .endBehaviour := by
  cases h with
  | @test c o start target _ ho =>
      have hop : (c.command o start target).opcode.operation = o := (opcodeOf_test o ho).1
      have hne : ∀ o ∈ testOperations, o ≠ .switch ∧ o ≠ .endBehaviour := by decide
      rw [hop]
      exact hne o ho
  | @call c start hc =>
      rcases Operation.eq_of_isHosted hc.hosted with hop | hop | hop <;>
        rw [GameCommand.command, hop] <;> decide
  | skip start target =>
      rw [elseCommand, opcodeOf_elseThen]
      simp [Opcode.engine]

theorem Block.operation_ne_all {layout : Layout} {b : Block} (hb : b.InScene layout) :
    ∀ c ∈ b.all, c.opcode.operation ≠ .switch ∧ c.opcode.operation ≠ .endBehaviour := by
  rw [Block.all, List.forall_mem_append]
  refine ⟨fun c hc => (b.laid_commands hb 0 c hc).operation_ne, ?_⟩
  intro c hc
  rw [List.mem_singleton.mp hc, endCommand, opcodeOf_finish]
  simp [Opcode.engine]

/-! ### Places -/

theorem placed_chainCommands (anyOf : Bool) (body exit : Nat) (last : Clause)
    (chain : List Clause) (start : Nat) :
    PlacedFrom start (chainCommands anyOf body exit last chain start) := by
  induction chain generalizing start with
  | nil => exact placedFrom_cons rfl (placedFrom_nil _)
  | cons c rest ih =>
      rw [chainCommands]
      cases anyOf with
      | true =>
          refine placedFrom_cons rfl ?_
          rw [if_pos rfl, c.length_bytes (show .orIf ∈ testOperations by decide)]
          exact ih _
      | false =>
          refine placedFrom_cons rfl ?_
          rw [if_neg (by decide), c.length_bytes (show .andIf ∈ testOperations by decide)]
          exact ih _

theorem Guard.length_bytes_commands (g : Guard) (start exit : Nat) :
    ((g.commands start exit).flatMap Command.bytes).length = g.size :=
  length_bytes_chainCommands _ _ _ _ _ _

theorem Guard.placed_commands (g : Guard) (start exit : Nat) :
    PlacedFrom start (g.commands start exit) :=
  placed_chainCommands _ _ _ _ _ _

/-- Every command of a layout carries the offset at which it is written. -/
theorem Block.placed_commands (b : Block) (start : Nat) : PlacedFrom start (b.commands start) := by
  induction b generalizing start with
  | done => exact placedFrom_nil start
  | call c rest ih =>
      refine placedFrom_cons rfl ?_
      rw [c.length_bytes]
      exact ih _
  | ifThen guard body rest ihbody ihrest =>
      refine placedFrom_append (guard.placed_commands _ _) ?_
      rw [guard.length_bytes_commands]
      refine placedFrom_append (ihbody _) ?_
      rw [body.length_bytes_commands]
      exact ihrest _
  | ifElse guard body other rest ihbody ihother ihrest =>
      refine placedFrom_append (guard.placed_commands _ _) ?_
      rw [guard.length_bytes_commands]
      refine placedFrom_append (ihbody _) ?_
      rw [body.length_bytes_commands]
      refine placedFrom_cons rfl ?_
      rw [length_bytes_elseCommand]
      refine placedFrom_append (ihother _) ?_
      rw [other.length_bytes_commands]
      exact ihrest _

theorem Block.placed_all (b : Block) : PlacedFrom 0 b.all := by
  refine placedFrom_append (b.placed_commands 0) ?_
  rw [b.length_bytes_commands]
  exact placedFrom_cons (by simp [endCommand]) (placedFrom_nil _)

/-! ### Jumps -/

/-- An offset at which one of the commands starts, or at which they end. -/
def LandsIn (commands : List Command) (finish t : Nat) : Prop :=
  t = finish ∨ ∃ c ∈ commands, c.offset = some t

theorem LandsIn.append {u v : List Command} {m n t : Nat} (h : LandsIn u m t)
    (hm : LandsIn v n m) : LandsIn (u ++ v) n t := by
  rcases h with rfl | ⟨c, hc, ht⟩
  · rcases hm with hm | ⟨c, hc, ht⟩
    · exact .inl hm
    · exact .inr ⟨c, List.mem_append_right u hc, ht⟩
  · exact .inr ⟨c, List.mem_append_left v hc, ht⟩

theorem LandsIn.right {v : List Command} {n t : Nat} (h : LandsIn v n t) (u : List Command) :
    LandsIn (u ++ v) n t := by
  rcases h with h | ⟨c, hc, ht⟩
  · exact .inl h
  · exact .inr ⟨c, List.mem_append_right u hc, ht⟩

/-- Commands with a place start where the first of them does. -/
theorem PlacedFrom.landsIn {start : Nat} {commands : List Command}
    (h : PlacedFrom start commands) :
    LandsIn commands (start + (commands.flatMap Command.bytes).length) start := by
  cases commands with
  | nil => exact .inl rfl
  | cons c rest => exact .inr ⟨c, List.mem_cons_self, h.head⟩

theorem Block.landsIn_start (b : Block) (start : Nat) :
    LandsIn (b.commands start) (start + b.size) start := by
  have h := (b.placed_commands start).landsIn
  rwa [b.length_bytes_commands] at h

theorem Guard.size_pos (g : Guard) : 0 < g.size := by
  unfold Guard.size
  cases g.chain with
  | nil =>
      unfold chainSize Clause.size
      omega
  | cons c rest =>
      unfold chainSize Clause.size
      omega

/-- The jumps of a guard lead to its block or its exit. -/
theorem jumps_chainCommands {anyOf : Bool} {body exit : Nat} {last : Clause} {chain : List Clause}
    {start : Nat} {c : Command} (hc : c ∈ chainCommands anyOf body exit last chain start) :
    ∀ t ∈ c.jumps, t = body ∨ t = exit := by
  intro t ht
  induction chain generalizing start with
  | nil =>
      rw [List.mem_singleton.mp hc, Clause.jumps_command, List.mem_singleton] at ht
      exact .inr ht
  | cons first rest ih =>
      rcases List.mem_cons.mp hc with rfl | hc
      · cases anyOf with
        | true => exact .inl (List.mem_singleton.mp ht)
        | false => exact .inr (List.mem_singleton.mp ht)
      · exact ih hc

/-- **Jumps lead forward to commands**: every jump of a program leads to a command of the program
behind the first, or to the end of the program. -/
theorem Block.landsIn_of_jump {b : Block} {layout : Layout} (hb : b.InScene layout) {start : Nat}
    {c : Command} (hc : c ∈ b.commands start) {t : Int} (ht : t ∈ c.jumps) :
    ∃ n : Nat, t = n ∧ start < n ∧ LandsIn (b.commands start) (start + b.size) n := by
  induction b generalizing start with
  | done => cases hc
  | call first rest ih =>
      rcases List.mem_cons.mp hc with rfl | hc
      · rw [hb.1.jumps_command] at ht
        cases ht
      · obtain ⟨n, rfl, hlt, hn⟩ := ih hb.2 hc
        refine ⟨n, rfl, by omega, ?_⟩
        rw [Block.size, ← Nat.add_assoc]
        exact hn.right [first.command start]
  | ifThen guard body rest ihbody ihrest =>
      obtain ⟨-, hbody, hrest⟩ := hb
      have hpos := guard.size_pos
      have hafter := rest.landsIn_start (start + guard.size + body.size)
      rw [Block.size, ← Nat.add_assoc, ← Nat.add_assoc]
      rcases List.mem_append.mp hc with hc | hc
      · rcases jumps_chainCommands hc t ht with rfl | rfl
        · refine ⟨_, rfl, by omega, LandsIn.right ?_ _⟩
          exact (body.landsIn_start _).append hafter
        · exact ⟨_, rfl, by omega, (hafter.right _).right _⟩
      rcases List.mem_append.mp hc with hc | hc
      · obtain ⟨n, rfl, hlt, hn⟩ := ihbody hbody hc
        exact ⟨n, rfl, by omega, (hn.append hafter).right _⟩
      · obtain ⟨n, rfl, hlt, hn⟩ := ihrest hrest hc
        exact ⟨n, rfl, by omega, (hn.right _).right _⟩
  | ifElse guard body other rest ihbody ihother ihrest =>
      obtain ⟨-, hbody, hother, hrest⟩ := hb
      have hpos := guard.size_pos
      have hafter := rest.landsIn_start (start + guard.size + body.size + 3 + other.size)
      have hsecond := (other.landsIn_start (start + guard.size + body.size + 3)).append hafter
      have hjump : LandsIn (elseCommand (start + guard.size + body.size)
          (start + guard.size + body.size + 3 + other.size) ::
          (other.commands (start + guard.size + body.size + 3) ++
            rest.commands (start + guard.size + body.size + 3 + other.size)))
          (start + guard.size + body.size + 3 + other.size + rest.size)
          (start + guard.size + body.size) := .inr ⟨_, List.mem_cons_self, rfl⟩
      have hsize : start + (Block.ifElse guard body other rest).size =
          start + guard.size + body.size + 3 + other.size + rest.size := by
        rw [Block.size]
        omega
      rw [hsize]
      rcases List.mem_append.mp hc with hc | hc
      · rcases jumps_chainCommands hc t ht with rfl | rfl
        · exact ⟨_, rfl, by omega, ((body.landsIn_start _).append hjump).right _⟩
        · exact ⟨_, rfl, by omega, ((hsecond.right [_]).right _).right _⟩
      rcases List.mem_append.mp hc with hc | hc
      · obtain ⟨n, rfl, hlt, hn⟩ := ihbody hbody hc
        exact ⟨n, rfl, by omega, (hn.append hjump).right _⟩
      rcases List.mem_cons.mp hc with rfl | hc
      · rw [jumps_elseCommand, List.mem_singleton] at ht
        exact ⟨_, ht, by omega, (((hafter.right _).right [_]).right _).right _⟩
      rcases List.mem_append.mp hc with hc | hc
      · obtain ⟨n, rfl, hlt, hn⟩ := ihother hother hc
        exact ⟨n, rfl, by omega, (((hn.append hafter).right [_]).right _).right _⟩
      · obtain ⟨n, rfl, hlt, hn⟩ := ihrest hrest hc
        exact ⟨n, rfl, by omega, (((hn.right _).right [_]).right _).right _⟩

end SceneScript
