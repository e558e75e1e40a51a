import SceneScript.Proofs.Structured

/-! # Structured programs, compiled

The script of a structured program is read back as its commands, with the start of a behavior in
front and ends of blocks laced in between (`Laced`, `parseScript_laced`). The ends of blocks do
nothing when they are executed, so all that matters about a compiled program is told by three facts.

* The instruction at the index of a command's offset is the command, with its arguments bound and
  its jump leading to the index of the offset it names (`Program.Has.code`).
* Between a command and the one behind it there are ends of blocks only (`Program.Has.next`).
* Nothing is reported about the script (`Block.script_ne_of_mem_findings`). -/

namespace SceneScript

/-! ### Reading without switches -/

/-- No switch is open and no behavior is due. -/
structure ParseState.Quiet (s : ParseState) : Prop where
  switches : s.switches = []
  settled : s.behaviorDue = false

/-- The end of a conditional block. -/
def endIfCommand : Command := .implicit (Catalog.standard.marker .endIf) []

/-- The start of the first behavior. -/
def behaviorCommand : Command :=
  .implicit (Catalog.standard.marker .behaviour) [⟨.label, .number 0⟩]

theorem operation_endIfCommand : endIfCommand.opcode.operation = .endIf := by
  decide +kernel

theorem operation_behaviorCommand : behaviorCommand.opcode.operation = .behaviour := by
  decide +kernel

/-- Commands with any number of the same command laced in between. -/
inductive Laced (m : Command) : List Command → List Command → Prop
  | nil : Laced m [] []
  | marker {commands all : List Command} : Laced m commands all → Laced m commands (m :: all)
  | command {commands all : List Command} (c : Command) : Laced m commands all →
      Laced m (c :: commands) (c :: all)

theorem Laced.replicate {m : Command} {commands all : List Command} (h : Laced m commands all)
    (n : Nat) : Laced m commands (List.replicate n m ++ all) := by
  induction n with
  | zero => exact h
  | succ n ih => exact .marker ih

/-- Before a command is read, blocks are closed and nothing else happens. -/
theorem ParseState.Quiet.ready {s : ParseState} (h : s.Quiet) (kind : ScriptKind) (c : Cursor) :
    (s.ready .standard kind c).Quiet ∧ ∃ n, (s.ready .standard kind c).commands.toList =
      s.commands.toList ++ List.replicate n endIfCommand := by
  have hclose : (s.closeBlocks .standard kind c).Quiet ∧
      (s.closeBlocks .standard kind c).commands.toList = s.commands.toList ++
        List.replicate (s.blocks.takeWhile (· == c.position)).length endIfCommand := by
    unfold closeBlocks
    split
    · exact ⟨⟨h.switches, h.settled⟩, closeIfs_commands .standard s c.position⟩
    · have hnone : (s.closeIfs .standard c.position).switches = [] := h.switches
      refine ⟨⟨?_, h.settled⟩, ?_⟩
      · simp [closeSwitches, hnone]
      · rw [closeSwitches_commands, hnone, closeIfs_commands]
        simp [endIfCommand]
  have hready : s.ready .standard kind c = (s.closeBlocks .standard kind c).enter c.position := by
    have hdue : ((s.closeBlocks .standard kind c).enter c.position).behaviorDue = false :=
      hclose.1.settled
    rw [ParseState.ready, startBehavior, hdue]
    rfl
  rw [hready]
  exact ⟨⟨hclose.1.switches, hclose.1.settled⟩, _, hclose.2⟩

theorem ParseState.Quiet.add {s : ParseState} (h : s.Quiet) {command : Command}
    (hop : command.opcode.operation ≠ .switch ∧ command.opcode.operation ≠ .endBehaviour)
    (index : Nat) : (s.add command index).Quiet := by
  obtain ⟨hswitch, hend⟩ := hop
  obtain ⟨hnone, hdue⟩ := h
  unfold ParseState.add ParseState.track
  dsimp only
  constructor
  · repeat' split
    all_goals simp_all
  · repeat' split
    all_goals simp_all

/-- **Reading a layout** gives its commands, laced with ends of blocks. -/
theorem ParseRun.laced {commands : List Command} {c : Cursor} {s s' : ParseState}
    {stop : Option (Nat × ParseError)} (h : ParseRun .standard .life c s s' stop) (hs : s.Quiet)
    (hplaced : PlacedFrom c.position commands)
    (hbytes : c.rest = commands.flatMap Command.bytes)
    (hconf : ∀ command ∈ commands, ∀ enclosing, command.Conforms .standard .life enclosing)
    (hop : ∀ command ∈ commands,
      command.opcode.operation ≠ .switch ∧ command.opcode.operation ≠ .endBehaviour) :
    stop = none ∧ ∃ all, s'.commands.toList = s.commands.toList ++ all ∧
      Laced endIfCommand commands all := by
  induction commands generalizing c s with
  | nil =>
      have hend : c.atEnd = true := by simp [Cursor.atEnd, hbytes]
      obtain ⟨rfl, rfl⟩ := h.eq_of_atEnd hend
      exact ⟨rfl, [], by simp, .nil⟩
  | cons command commands ih =>
      rw [List.forall_mem_cons] at hconf hop
      obtain ⟨after, hrest, hposition, hrun⟩ := h.next_of_conforms (hconf.1 _) hplaced.head hbytes
      obtain ⟨hready, n, hcommands⟩ := hs.ready .life c
      have hplaced' := hplaced.tail
      rw [← hposition] at hplaced'
      obtain ⟨hstop, all, hall, hlaced⟩ := ih hrun (hready.add hop.1 _) hplaced' hrest hconf.2
        hop.2
      refine ⟨hstop, List.replicate n endIfCommand ++ command :: all, ?_,
        (hlaced.command command).replicate n⟩
      rw [hall, ParseState.add_commands, Array.toList_push, hcommands]
      simp

/-! ### Reading a whole script -/

/-- What is read in front of a program: the start of a behavior, unless there is nothing in the
program. -/
def Block.lead : Block → List Command
  | .done => []
  | _ => [behaviorCommand]

theorem Block.lead_of_ne {b : Block} (h : b ≠ .done) : b.lead = [behaviorCommand] := by
  cases b with
  | done => exact absurd rfl h
  | call | ifThen | ifElse => rfl

/-- Before the first command is read, a behavior starts if the command is no END. -/
theorem ready_start (c : Cursor) :
    ((ParseState.start .life).ready .standard .life c).switches = [] ∧
      ((ParseState.start .life).ready .standard .life c).commands.toList =
        (if c.peek?.getD 0 = 0 then [] else [behaviorCommand]) ∧
      ((ParseState.start .life).ready .standard .life c).behaviorDue = (c.peek?.getD 0 == 0) := by
  have hclose : (ParseState.start .life).closeBlocks .standard .life c = ParseState.start .life := by
    unfold ParseState.closeBlocks
    split <;> rfl
  unfold ParseState.ready ParseState.startBehavior
  rw [hclose]
  by_cases hcode : c.peek?.getD 0 = 0
  · simp [hcode, ParseState.enter, ParseState.start]
  · simp [hcode, ParseState.enter, ParseState.start, behaviorCommand]

theorem chainCommands_ne_nil (anyOf : Bool) (body exit : Nat) (last : Clause)
    (chain : List Clause) (start : Nat) : chainCommands anyOf body exit last chain start ≠ [] := by
  cases chain <;> simp [chainCommands]

theorem Block.commands_ne_nil {b : Block} (h : b ≠ .done) (start : Nat) : b.commands start ≠ [] := by
  cases b with
  | done => exact absurd rfl h
  | call c rest => simp [Block.commands]
  | ifThen guard body rest => simp [Block.commands, Guard.commands, chainCommands_ne_nil]
  | ifElse guard body other rest => simp [Block.commands, Guard.commands, chainCommands_ne_nil]

theorem peek?_start_script {b : Block} {first : Command} {rest : List Command}
    (h : b.all = first :: rest) :
    (Cursor.start b.script).peek?.getD 0 = first.opcode.code := by
  simp [Cursor.peek?, Cursor.start, Block.script, h, Command.bytes]

/-- **Parsing the script of a program** gives its commands behind the start of a behavior, laced
with ends of blocks, and reports nothing. -/
theorem Block.parseScript_laced {layout : Layout} {b : Block} (hb : b.InScene layout)
    (hjumps : ∀ c ∈ b.commands 0, ∀ t ∈ c.jumps, t < 65536) (scene actor : Nat) :
    ∃ all, Laced endIfCommand b.all all ∧ (b = .done → all = [endCommand 0]) ∧
      (parseScript .standard scene (.life actor) b.script).1.commands.toList = b.lead ++ all ∧
      (parseScript .standard scene (.life actor) b.script).2 = [] := by
  obtain ⟨s, stop, hrun, he⟩ := parseScript_eq .standard scene (.life actor) b.script
  change ParseRun .standard .life (.start b.script) (.start .life) s stop at hrun
  have hplaced : PlacedFrom (Cursor.start b.script).position b.all := b.placed_all
  have hconf := b.conforms_all hb hjumps
  have hop := b.operation_ne_all hb
  have hbytes : (Cursor.start b.script).rest = b.all.flatMap Command.bytes := rfl
  suffices h : stop = none ∧ ∃ all, s.commands.toList = b.lead ++ all ∧
      Laced endIfCommand b.all all ∧ (b = .done → all = [endCommand 0]) by
    obtain ⟨rfl, all, hall, hlaced, hempty⟩ := h
    rw [he]
    exact ⟨all, hlaced, hempty, hall, rfl⟩
  obtain ⟨hswitches, hcommands, hdue⟩ := ready_start (Cursor.start b.script)
  by_cases hdone : b = .done
  · subst hdone
    have hall : Block.all .done = [endCommand 0] := rfl
    rw [peek?_start_script hall] at hcommands
    rw [hall] at hplaced hconf hbytes ⊢
    obtain ⟨after, hrest, -, hrun⟩ := hrun.next_of_conforms (hconf _ List.mem_cons_self _)
      hplaced.head hbytes
    obtain ⟨rfl, rfl⟩ := hrun.eq_of_atEnd (by simpa [Cursor.atEnd] using hrest)
    have hcode : (endCommand 0).opcode.code = 0 := by
      rw [endCommand, opcodeOf_finish]
      rfl
    rw [if_pos hcode] at hcommands
    refine ⟨rfl, [endCommand 0], ?_, .command _ .nil, fun _ => rfl⟩
    rw [ParseState.add_commands, Array.toList_push, hcommands]
    rfl
  · obtain ⟨first, rest, hfirst⟩ := List.exists_cons_of_ne_nil (b.commands_ne_nil hdone 0)
    have hall : b.all = first :: (rest ++ [endCommand b.size]) := by
      rw [Block.all, hfirst, List.cons_append]
    have hcode : first.opcode.code ≠ 0 := by
      refine (b.laid_commands hb 0 first ?_).code_ne_zero
      rw [hfirst]
      exact List.mem_cons_self
    have hlead := b.lead_of_ne hdone
    rw [peek?_start_script hall, if_neg hcode] at hcommands
    rw [peek?_start_script hall, beq_eq_false_iff_ne.mpr hcode] at hdue
    rw [hall] at hplaced hconf hop hbytes ⊢
    rw [List.forall_mem_cons] at hconf hop
    obtain ⟨after, hrest, hposition, hrun⟩ := hrun.next_of_conforms (hconf.1 _) hplaced.head hbytes
    have hplaced' := hplaced.tail
    have hquiet : ((ParseState.start .life).ready .standard .life (.start b.script)).Quiet :=
      ⟨hswitches, hdue⟩
    rw [← hposition] at hplaced'
    obtain ⟨hstop, all, hall', hlaced⟩ := hrun.laced (hquiet.add hop.1 _) hplaced' hrest hconf.2
      hop.2
    refine ⟨hstop, first :: all, ?_, hlaced.command first, fun h => absurd h hdone⟩
    rw [hall', ParseState.add_commands, Array.toList_push, hcommands, hlead]
    simp

/-! ### Laced commands -/

theorem Laced.mem {m : Command} {commands all : List Command} (h : Laced m commands all) :
    ∀ c ∈ all, c = m ∨ c ∈ commands := by
  induction h with
  | nil => simp
  | marker _ ih =>
      rw [List.forall_mem_cons]
      exact ⟨.inl rfl, ih⟩
  | command c _ ih =>
      rw [List.forall_mem_cons]
      exact ⟨.inr List.mem_cons_self, fun d hd => (ih d hd).imp_right (List.mem_cons_of_mem c)⟩

/-- What stands before and behind a command is laced likewise. -/
theorem Laced.split {m c : Command} {before after all : List Command}
    (h : Laced m (before ++ c :: after) all) :
    ∃ u v, all = u ++ c :: v ∧ Laced m before u ∧ Laced m after v := by
  generalize hcs : before ++ c :: after = commands at h
  induction h generalizing before with
  | nil => simp at hcs
  | marker _ ih =>
      obtain ⟨u, v, rfl, hu, hv⟩ := ih hcs
      exact ⟨m :: u, v, rfl, .marker hu, hv⟩
  | @command commands all first h ih =>
      cases before with
      | nil =>
          obtain ⟨rfl, rfl⟩ := List.cons.inj hcs
          exact ⟨[], all, rfl, .nil, h⟩
      | cons b before =>
          obtain ⟨rfl, hrest⟩ := List.cons.inj hcs
          obtain ⟨u, v, rfl, hu, hv⟩ := ih hrest
          exact ⟨b :: u, v, rfl, .command b hu, hv⟩

theorem Laced.append {m : Command} {commands commands' all all' : List Command}
    (h : Laced m commands all) (h' : Laced m commands' all') :
    Laced m (commands ++ commands') (all ++ all') := by
  induction h with
  | nil => exact h'
  | marker _ ih => exact .marker ih
  | command c _ ih => exact .command c ih

theorem Laced.eq_nil {m : Command} {commands : List Command} (h : Laced m commands []) :
    commands = [] := by
  cases h
  rfl

/-! ### Indices of offsets -/

/-- The index of the instruction that was read at an offset. -/
def Program.indexAt (p : Program) (o : Nat) : Nat :=
  p.instructions.toList.findIdx fun i => i.offset == some o

/-- Between two indices there are ends of blocks only. -/
def Program.Follows (p : Program) (k n : Nat) : Prop :=
  k < n ∧ ∀ j, k < j → j < n → ∃ i, p.instructions[j]? = some i ∧ i.operation = .endIf

section
variable {source : SceneSource} {id : ScriptId} {parsed : ParsedScript}

theorem SceneSource.offsets_program (hs : source.parsed? .standard id = some parsed) :
    (source.program .standard parsed).instructions.toList.map Instruction.offset =
      parsed.commands.toList.map Command.offset := by
  apply List.ext_getElem?
  intro k
  rw [List.getElem?_map, List.getElem?_map, Array.getElem?_toList, Array.getElem?_toList,
    source.getElem?_instructions .standard hs, Option.map_map]
  congr 1
  funext c
  exact SceneSource.instruction_offset

/-- The first command with an offset gives the index of the offset. -/
theorem SceneSource.indexAt_program (hs : source.parsed? .standard id = some parsed)
    {pre post : List Command} {c : Command} {o : Nat}
    (hcommands : parsed.commands.toList = pre ++ c :: post) (ho : c.offset = some o)
    (hpre : ∀ d ∈ pre, d.offset ≠ some o) :
    (source.program .standard parsed).indexAt o = pre.length := by
  have hindex : (source.program .standard parsed).indexAt o =
      (parsed.commands.toList.map Command.offset).findIdx (· == some o) := by
    rw [← source.offsets_program hs, List.findIdx_map]
    rfl
  have hnone : (pre.map Command.offset).findIdx (· == some o) = pre.length := by
    rw [List.findIdx_eq_length_of_false, List.length_map]
    intro n hn
    obtain ⟨d, hd, rfl⟩ := List.mem_map.mp hn
    exact beq_eq_false_iff_ne.mpr (hpre d hd)
  rw [hindex, hcommands, List.map_append, List.map_cons, List.findIdx_append, hnone, ho]
  simp [List.findIdx_cons]

theorem SceneSource.getElem?_program (hs : source.parsed? .standard id = some parsed)
    {pre post : List Command} {c : Command} (hcommands : parsed.commands.toList = pre ++ c :: post) :
    (source.program .standard parsed).instructions[pre.length]? =
      some (source.instruction .standard id pre.length (parsed.part pre.length) c) := by
  rw [source.getElem?_instructions .standard hs, ← Array.getElem?_toList, hcommands]
  simp

theorem SceneSource.follows_program (hs : source.parsed? .standard id = some parsed)
    {pre mid post : List Command} {c : Command}
    (hcommands : parsed.commands.toList = pre ++ c :: (mid ++ post))
    (hmid : ∀ d ∈ mid, d = endIfCommand) :
    (source.program .standard parsed).Follows pre.length (pre.length + 1 + mid.length) := by
  refine ⟨by omega, ?_⟩
  intro j hj hlt
  have hget : parsed.commands[j]? = some endIfCommand := by
    have hin : j - (pre.length + 1) < mid.length := by omega
    rw [← Array.getElem?_toList, hcommands, List.getElem?_append_right (by omega),
      show j - pre.length = (j - (pre.length + 1)) + 1 by omega, List.getElem?_cons_succ,
      List.getElem?_append_left hin, List.getElem?_eq_getElem hin]
    exact congrArg some (hmid _ (List.getElem_mem hin))
  refine ⟨_, by rw [source.getElem?_instructions .standard hs, hget, Option.map_some], ?_⟩
  rw [SceneSource.instruction_operation, operation_endIfCommand]

end

/-! ### Binding -/

/-- An argument as it is bound, a jump to the index of the offset it names. -/
def Argument.boundAt (index : Nat → Nat) (a : Argument) : Operand :=
  if a.slot.role = .offset then .target (index (a.value.number?.getD 0).toNat) else a.bound

/-- An instruction is a command with its arguments bound. -/
structure Command.Bound (index : Nat → Nat) (c : Command) (i : Instruction) : Prop where
  opcode : i.opcode = c.opcode
  condition : i.condition = c.condition.map fun k => ⟨k.predicate, k.param.map Argument.bound⟩
  test : i.test = c.test.map Compile.test
  operands : i.operands = c.args.map (Argument.boundAt index)

/-- Everything a command names is there: its jumps lead to commands of its own script, its actors
and points are of the scene. -/
structure Command.Resolved (layout : Layout) (own : Option ParsedScript) (index : Nat → Nat)
    (c : Command) : Prop where
  plain : Link.crossReference? c.opcode.operation = none
  jump : ∀ a ∈ c.args, a.slot.role = .offset →
    ∃ t : Nat, a.value = .number t ∧ Link.lookup own t = some (index t)
  args : ∀ a ∈ c.args, a.InScene layout
  param : ∀ k ∈ c.condition, ∀ a ∈ k.param, a.slot.role ≠ .offset ∧ a.InScene layout

/-- An argument of the scene is bound, without a finding. -/
theorem Argument.InScene.operand {layout : Layout} {a : Argument} (h : a.InScene layout)
    (hrole : a.slot.role ≠ .offset) : Compile.operand layout a = (a.bound, []) := by
  unfold Argument.InScene at h
  unfold Compile.operand Argument.bound Compile.indexBelow?
  cases hvalue : a.value with
  | text s => simp
  | target t => simp
  | unresolved n => simp
  | number n =>
      cases hr : a.slot.role with
      | offset => exact absurd hr hrole
      | actor =>
          simp only [hvalue, hr] at h
          simp [h]
      | point =>
          simp only [hvalue, hr] at h
          simp [h]
      | value | label => simp

namespace Command.Resolved

variable {layout : Layout} {own : Option ParsedScript} {index : Nat → Nat} {c : Command}

/-- An argument is linked and bound without a finding. -/
theorem argument (h : c.Resolved layout own index) {a : Argument} (ha : a ∈ c.args) :
    (Link.ownArgument own c.name a).2 = [] ∧
      Compile.operand layout (Link.ownArgument own c.name a).1 = (a.boundAt index, []) := by
  by_cases hrole : a.slot.role = .offset
  · obtain ⟨t, hvalue, hlookup⟩ := h.jump a ha hrole
    have he : Link.ownArgument own c.name a = ({ a with value := .target (index t) }, []) := by
      unfold Link.ownArgument Link.resolve
      rw [if_pos hrole, hvalue]
      simp only [hlookup]
    rw [he, Argument.boundAt, if_pos hrole, hvalue]
    exact ⟨rfl, rfl⟩
  · rw [Link.ownArgument_of_role_ne hrole, Argument.boundAt, if_neg hrole]
    exact ⟨rfl, (h.args a ha).operand hrole⟩

variable {source : SceneSource} {id : ScriptId} {k : Nat} {part : Option Int}

theorem link_findings
    (h : c.Resolved source.layout (source.parsed? .standard id) index) :
    (Link.command (source.parsed .standard) id c).2 = [] := by
  rw [Link.command_of_crossReference?_eq_none h.plain, List.flatMap_eq_nil_iff]
  exact fun a ha => (h.argument ha).1

theorem linked_args
    (h : c.Resolved source.layout (source.parsed? .standard id) index) :
    (source.linked .standard id c).args.map (Compile.operand source.layout) =
      c.args.map fun a => (a.boundAt index, []) := by
  rw [SceneSource.linked, Link.command_of_crossReference?_eq_none h.plain, List.map_map]
  exact List.map_congr_left fun a ha => (h.argument ha).2

theorem condition
    (h : c.Resolved source.layout (source.parsed? .standard id) index) {k : Condition}
    (hk : c.condition = some k) :
    Compile.condition source.layout k = (⟨k.predicate, k.param.map Argument.bound⟩, []) := by
  unfold Compile.condition
  cases hparam : k.param with
  | none => rfl
  | some a =>
      obtain ⟨hrole, hscene⟩ := h.param k hk a hparam
      simp only [hscene.operand hrole]
      rfl

theorem compile_findings
    (h : c.Resolved source.layout (source.parsed? .standard id) index) :
    (Compile.command source.layout k part (source.linked .standard id c)).2 = [] := by
  unfold Compile.command
  simp only [h.linked_args, SceneSource.linked_condition, List.append_eq_nil_iff,
    List.flatMap_eq_nil_iff]
  constructor
  · intro b hb
    obtain ⟨k, hk, rfl⟩ := Option.map_eq_some_iff.mp (Option.mem_toList.mp hb)
    rw [h.condition hk]
  · intro b hb
    obtain ⟨a, -, rfl⟩ := List.mem_map.mp hb
    rfl

theorem bound (h : c.Resolved source.layout (source.parsed? .standard id) index) :
    c.Bound index (source.instruction .standard id k part c) := by
  refine ⟨SceneSource.instruction_opcode, ?_, SceneSource.instruction_test, ?_⟩
  · rw [SceneSource.instruction_condition]
    cases hk : c.condition with
    | none => rfl
    | some k => rw [Option.map_some, Option.map_some, h.condition hk]
  · have hargs := congrArg (List.map Prod.fst) h.linked_args
    rw [List.map_map, List.map_map] at hargs
    rw [SceneSource.instruction_operands]
    exact hargs

end Command.Resolved

/-! ### Programs in place -/

/-- A script of a scene that was read from a structured program: the commands of the program behind
the start of a behavior, laced with ends of blocks. -/
structure Block.ReadAs (b : Block) (source : SceneSource) (id : ScriptId) (parsed : ParsedScript)
    (all : List Command) : Prop where
  found : source.parsed? .standard id = some parsed
  laced : Laced endIfCommand b.all all
  empty : b = .done → all = [endCommand 0]
  commands : parsed.commands.toList = b.lead ++ all

theorem Block.offset_lead (b : Block) : ∀ d ∈ b.lead, d.offset = none := by
  intro d hd
  cases b with
  | done => cases hd
  | call | ifThen | ifElse =>
      rw [List.mem_singleton.mp hd]
      rfl

namespace Block.ReadAs

variable {b : Block} {source : SceneSource} {id : ScriptId} {parsed : ParsedScript}
  {all : List Command}

/-- The index of an offset, given what stands before the command. -/
theorem indexAt (h : b.ReadAs source id parsed all) {before after u v : List Command}
    {c : Command} {o : Nat} (hsplit : b.all = before ++ c :: after)
    (hu : Laced endIfCommand before u) (hcommands : parsed.commands.toList = (b.lead ++ u) ++ c :: v)
    (ho : c.offset = some o) :
    (source.program .standard parsed).indexAt o = (b.lead ++ u).length := by
  refine source.indexAt_program h.found hcommands ho ?_
  have hplaced := b.placed_all
  rw [hsplit] at hplaced
  intro d hd he
  rcases List.mem_append.mp hd with hd | hd
  · rw [b.offset_lead d hd] at he
    cases he
  · rcases hu.mem d hd with rfl | hd
    · cases he
    · have := hplaced.offset_lt hd he ho
      omega

/-- What stands before and behind a command of the program. -/
theorem split (h : b.ReadAs source id parsed all) {before after : List Command} {c : Command}
    (hsplit : b.all = before ++ c :: after) :
    ∃ u v, parsed.commands.toList = (b.lead ++ u) ++ c :: v ∧ Laced endIfCommand before u ∧
      Laced endIfCommand after v := by
  have hlaced := h.laced
  rw [hsplit] at hlaced
  obtain ⟨u, v, rfl, hu, hv⟩ := hlaced.split
  exact ⟨u, v, by rw [h.commands, List.append_assoc], hu, hv⟩

/-- The command at the index of an offset is the one that was written there. -/
theorem getElem?_indexAt (h : b.ReadAs source id parsed all) {c : Command} (hc : c ∈ b.all)
    {o : Nat} (ho : c.offset = some o) :
    parsed.commands[(source.program .standard parsed).indexAt o]? = some c := by
  obtain ⟨before, after, hsplit⟩ := List.append_of_mem hc
  obtain ⟨u, v, hcommands, hu, -⟩ := h.split hsplit
  rw [h.indexAt hsplit hu hcommands ho, ← Array.getElem?_toList, hcommands]
  simp

/-- Between a command and the next there are ends of blocks only. -/
theorem follows (h : b.ReadAs source id parsed all) {c : Command} (hc : c ∈ b.commands 0)
    {o : Nat} (ho : c.offset = some o) :
    (source.program .standard parsed).Follows ((source.program .standard parsed).indexAt o)
      ((source.program .standard parsed).indexAt (o + c.bytes.length)) := by
  obtain ⟨before, behind, hbehind⟩ := List.append_of_mem hc
  obtain ⟨next, after, hnext⟩ : ∃ next after, behind ++ [endCommand b.size] = next :: after :=
    List.exists_cons_of_ne_nil (by simp)
  have hsplit : b.all = before ++ c :: (next :: after) := by
    rw [← hnext, Block.all, hbehind]
    simp
  have hsplit' : b.all = (before ++ [c]) ++ next :: after := by
    rw [hsplit]
    simp
  have hoffset : next.offset = some (o + c.bytes.length) := by
    have hc' := b.placed_all before c (next :: after) hsplit
    rw [ho, Option.some.injEq] at hc'
    rw [b.placed_all (before ++ [c]) next after hsplit', hc']
    simp
  obtain ⟨u, v, hcommands, hu, hv⟩ := h.split hsplit
  have hv' : Laced endIfCommand ([] ++ next :: after) v := hv
  obtain ⟨mid, w, rfl, hmid, -⟩ := hv'.split
  have hmarkers : ∀ d ∈ mid, d = endIfCommand := fun d hd => by simpa using hmid.mem d hd
  have hcommands' : parsed.commands.toList = (b.lead ++ (u ++ c :: mid)) ++ next :: w := by
    rw [hcommands]
    simp
  rw [h.indexAt hsplit hu hcommands ho,
    h.indexAt hsplit' (hu.append (hmid.command c)) hcommands' hoffset]
  have hfollows := source.follows_program h.found hcommands hmarkers
  have hlength : (b.lead ++ (u ++ c :: mid)).length = (b.lead ++ u).length + 1 + mid.length := by
    simp only [List.length_append, List.length_cons]
    omega
  rwa [hlength]

/-- The offset of every command but the first leads to the command. -/
theorem lookup (h : b.ReadAs source id parsed all) {c : Command} (hc : c ∈ b.all) {t : Nat}
    (ht : c.offset = some t) (hpos : 0 < t) :
    Link.lookup (source.parsed? .standard id) t =
      some ((source.program .standard parsed).indexAt t) := by
  obtain ⟨before, after, hsplit⟩ := List.append_of_mem hc
  obtain ⟨u, v, hcommands, hu, -⟩ := h.split hsplit
  have hget := h.getElem?_indexAt hc ht
  have hindex := h.indexAt hsplit hu hcommands ht
  rw [Link.lookup, if_pos (Int.natCast_nonneg t), h.found, Option.bind_some, Int.toNat_natCast]
  have hfound := h.found
  rw [SceneSource.parsed?_eq, Option.map_eq_some_iff] at hfound
  obtain ⟨bytes, -, rfl⟩ := hfound
  rcases parseScript_indexOf? hget ht with hi | ⟨entry, n, hentry, -, hm⟩
  · exact hi
  · exfalso
    rcases List.eq_nil_or_concat u with rfl | ⟨u, last, rfl⟩
    · obtain rfl := hu.eq_nil
      have := b.placed_all [] c after hsplit
      simp only [ht, List.flatMap_nil, List.length_nil, Nat.add_zero, Option.some.injEq] at this
      omega
    · rw [List.concat_eq_append] at hu hcommands hindex
      have hlast : (parseScript .standard source.index id bytes).1.commands[entry]? =
          some last := by
        have hlen : entry = (b.lead ++ u).length := by
          simp only [List.length_append, List.length_cons, List.length_nil] at hindex ⊢
          omega
        rw [← Array.getElem?_toList, hcommands, hlen]
        simp
      rw [hlast, Option.some.injEq] at hm
      rcases hu.mem last (by simp) with he | hmem
      · rw [he] at hm
        have hargs : ([] : List Argument) = [⟨.label, .number n⟩] := congrArg Command.args hm
        cases hargs
      · obtain ⟨w, x, rfl⟩ := List.append_of_mem hmem
        have := b.placed_all w last (x ++ c :: after) (by rw [hsplit]; simp)
        rw [hm] at this
        cases this

end Block.ReadAs

/-! ### Nothing is reported -/

/-- The parameter of a condition is no jump. -/
theorem Condition.Conforms.role_ne {k : Condition} (h : k.Conforms .standard) :
    ∀ a ∈ k.param, a.slot.role ≠ .offset := by
  intro a ha
  obtain ⟨hpred, hslot, -⟩ := h
  have hlaid := standard_predicate_wellLaid hpred
  rw [Option.mem_def.mp ha, Option.map_some] at hslot
  simp only [Predicate.wellLaid, ← hslot, Option.all_some, Bool.and_eq_true, bne_iff_ne] at hlaid
  exact hlaid.1

/-- A command of a layout whose jumps lead to commands is resolved. -/
theorem Laid.resolved {layout : Layout} {own : Option ParsedScript} {index : Nat → Nat}
    {c : Command} (h : Laid layout c)
    (hjumps : ∀ t ∈ c.jumps, ∃ n : Nat, t = n ∧ Link.lookup own n = some (index n)) :
    c.Resolved layout own index := by
  have hjump : ∀ target : Nat, (target : Int) ∈ c.jumps → ∀ a ∈ [(⟨.jump, .number target⟩ : Argument)],
      a.slot.role = .offset →
        ∃ t : Nat, a.value = .number t ∧ Link.lookup own t = some (index t) := by
    intro target ht a ha _
    obtain ⟨n, hn, hlookup⟩ := hjumps target ht
    rw [List.mem_singleton.mp ha, hn]
    exact ⟨n, rfl, hlookup⟩
  have hscene : ∀ target : Nat, ∀ a ∈ [(⟨.jump, .number target⟩ : Argument)], a.InScene layout := by
    intro target a ha
    rw [List.mem_singleton.mp ha]
    trivial
  cases h with
  | @test c o start target hc ho =>
      have hop : (c.command o start target).opcode.operation = o := (opcodeOf_test o ho).1
      have hplain : ∀ o ∈ testOperations, (Link.crossReference? o).isNone = true := by decide
      refine ⟨?_, hjump target (by simp [Clause.jumps_command]), hscene target, ?_⟩
      · rw [hop]
        exact Option.isNone_iff_eq_none.mp (hplain o ho)
      · intro k hk a ha
        obtain rfl := Option.some.inj hk
        exact ⟨hc.condition.role_ne a ha, hc.param a ha⟩
  | @call c start hc =>
      refine ⟨?_, ?_, hc.args, ?_⟩
      · rcases Operation.eq_of_isHosted hc.hosted with hop | hop | hop <;>
          rw [GameCommand.command, hop] <;> rfl
      · intro a ha hrole
        exact absurd hrole (hc.role_ne a ha)
      · intro k hk
        cases hk
  | skip start target =>
      refine ⟨?_, hjump target (by simp [jumps_elseCommand]), hscene target, ?_⟩
      · rw [elseCommand, opcodeOf_elseThen]
        rfl
      · intro k hk
        cases hk

theorem resolved_of_args_eq_nil {layout : Layout} {own : Option ParsedScript} {index : Nat → Nat}
    {c : Command} (hplain : Link.crossReference? c.opcode.operation = none) (hargs : c.args = [])
    (hcondition : c.condition = none) : c.Resolved layout own index := by
  refine ⟨hplain, ?_, ?_, ?_⟩ <;> simp [hargs, hcondition]

theorem resolved_behaviorCommand (layout : Layout) (own : Option ParsedScript)
    (index : Nat → Nat) : behaviorCommand.Resolved layout own index := by
  have hargs : behaviorCommand.args = [⟨.label, .number 0⟩] := rfl
  refine ⟨?_, ?_, ?_, ?_⟩
  · rw [operation_behaviorCommand]
    rfl
  · intro a ha hrole
    rw [hargs, List.mem_singleton] at ha
    rw [ha] at hrole
    cases hrole
  · intro a ha
    rw [hargs, List.mem_singleton] at ha
    rw [ha]
    trivial
  · intro k hk
    cases hk

/-- Every command of a structured script is resolved. -/
theorem Block.ReadAs.resolved {b : Block} {source : SceneSource} {id : ScriptId}
    {parsed : ParsedScript} {all : List Command} (h : b.ReadAs source id parsed all)
    (hb : b.InScene source.layout) {c : Command} (hc : c ∈ parsed.commands) :
    c.Resolved source.layout (source.parsed? .standard id)
      (source.program .standard parsed).indexAt := by
  rw [← Array.mem_toList_iff, h.commands, List.mem_append] at hc
  rcases hc with hc | hc
  · have hlead : c = behaviorCommand := by
      cases b with
      | done => cases hc
      | call | ifThen | ifElse => exact List.mem_singleton.mp hc
    rw [hlead]
    exact resolved_behaviorCommand _ _ _
  rcases h.laced.mem c hc with rfl | hc
  · exact resolved_of_args_eq_nil (by rw [operation_endIfCommand]; rfl) rfl rfl
  rcases List.mem_append.mp hc with hc | hc
  · refine (b.laid_commands hb 0 c hc).resolved ?_
    intro t ht
    obtain ⟨n, rfl, hpos, hlands⟩ := b.landsIn_of_jump hb hc ht
    refine ⟨n, rfl, ?_⟩
    rcases hlands with hn | ⟨d, hd, hn⟩
    · have hend : endCommand b.size ∈ b.all := List.mem_append_right _ List.mem_cons_self
      refine h.lookup hend ?_ hpos
      rw [hn, Nat.zero_add]
      rfl
    · exact h.lookup (List.mem_append_left _ hd) hn hpos
  · rw [List.mem_singleton.mp hc]
    refine resolved_of_args_eq_nil ?_ rfl rfl
    rw [endCommand, opcodeOf_finish]
    rfl

/-- A diagnostic found in a script says so. -/
theorem SceneSource.FoundIn.script_eq {catalog : Catalog} {source : SceneSource} {id : ScriptId}
    {bytes : List UInt8} {d : Diagnostic} (h : source.FoundIn catalog id bytes d) :
    d.location.script = id := by
  rcases h with hd | ⟨k, c, -, ⟨issue, -, rfl⟩ | ⟨issue, -, rfl⟩⟩
  · obtain ⟨s, stop, -, he⟩ := parseScript_eq catalog source.index id bytes
    rw [he, List.mem_map] at hd
    obtain ⟨f, -, rfl⟩ := hd
    rfl
  · rfl
  · rfl

/-- Nothing is reported about a script that is read to its end and all of whose commands are
resolved. -/
theorem SceneSource.script_ne_of_resolved {source : SceneSource} {id : ScriptId}
    {bytes : List UInt8} {index : Nat → Nat} (hbytes : source.bytes? id = some bytes)
    (hread : (parseScript .standard source.index id bytes).2 = [])
    (hresolved : ∀ c ∈ (parseScript .standard source.index id bytes).1.commands,
      c.Resolved source.layout (source.parsed? .standard id) index)
    {d : Diagnostic} (hd : d ∈ source.findings .standard) : d.location.script ≠ id := by
  intro he
  obtain ⟨id', bytes', hid, hfound⟩ := (SceneSource.mem_findings_iff .standard source d).mp hd
  obtain rfl : id' = id := hfound.script_eq.symm.trans he
  obtain rfl : bytes' = bytes := Option.some.inj (hid.symm.trans hbytes)
  rcases hfound with hd | ⟨k, c, hc, ⟨issue, hissue, -⟩ | ⟨issue, hissue, -⟩⟩
  · rw [hread] at hd
    cases hd
  · rw [(hresolved c (Array.mem_of_getElem? hc)).link_findings] at hissue
    cases hissue
  · rw [(hresolved c (Array.mem_of_getElem? hc)).compile_findings] at hissue
    cases hissue

section
variable {source : SceneSource} {a : Nat} {b : Block}

theorem Block.readAs (hbytes : source.bytes? (.life a) = some b.script)
    (hb : b.InScene source.layout) (hjumps : ∀ c ∈ b.commands 0, ∀ t ∈ c.jumps, t < 65536) :
    ∃ all, b.ReadAs source (.life a)
      (parseScript .standard source.index (.life a) b.script).1 all := by
  obtain ⟨all, hlaced, hempty, hcommands, -⟩ := b.parseScript_laced hb hjumps source.index a
  refine ⟨all, ?_, hlaced, hempty, hcommands⟩
  rw [SceneSource.parsed?_eq, hbytes]
  rfl

/-- **Nothing is reported** about the script of a structured program. -/
theorem Block.script_ne_of_mem_findings (hbytes : source.bytes? (.life a) = some b.script)
    (hb : b.InScene source.layout) (hjumps : ∀ c ∈ b.commands 0, ∀ t ∈ c.jumps, t < 65536)
    {d : Diagnostic} (hd : d ∈ source.findings .standard) : d.location.script ≠ .life a := by
  obtain ⟨all, hread⟩ := b.readAs hbytes hb hjumps
  obtain ⟨-, -, -, -, hnil⟩ := b.parseScript_laced hb hjumps source.index a
  exact source.script_ne_of_resolved hbytes hnil (fun c hc => hread.resolved hb hc) hd

end

/-! ### Assembled programs -/

/-- A program has commands: the instruction at the index of a command's offset is the command,
bound, and between a command and the one behind it there are ends of blocks only. -/
structure Program.Has (p : Program) (commands : List Command) : Prop where
  code : ∀ c ∈ commands, ∀ o, c.offset = some o →
    ∃ i, p.instructions[p.indexAt o]? = some i ∧ c.Bound p.indexAt i
  next : ∀ c ∈ commands, ∀ o, c.offset = some o →
    p.Follows (p.indexAt o) (p.indexAt (o + c.bytes.length))

theorem Program.Has.mono {p : Program} {u v : List Command} (h : p.Has v)
    (hsub : ∀ c ∈ u, c ∈ v) : p.Has u :=
  ⟨fun c hc => h.code c (hsub c hc), fun c hc => h.next c (hsub c hc)⟩

theorem Program.Has.left {p : Program} {u v : List Command} (h : p.Has (u ++ v)) : p.Has u :=
  h.mono fun _ hc => List.mem_append_left v hc

theorem Program.Has.right {p : Program} {u v : List Command} (h : p.Has (u ++ v)) : p.Has v :=
  h.mono fun _ hc => List.mem_append_right u hc

/-- Commands that follow each other take up an instruction each at least. -/
theorem Program.Has.indexAt_add_le {p : Program} {commands : List Command} {start : Nat}
    (h : p.Has commands) (hplaced : PlacedFrom start commands) :
    p.indexAt start + commands.length ≤
      p.indexAt (start + (commands.flatMap Command.bytes).length) := by
  induction commands generalizing start with
  | nil => simp
  | cons c rest ih =>
      have hfirst := (h.next c List.mem_cons_self start hplaced.head).1
      have hrest := ih (h.mono fun d hd => List.mem_cons_of_mem c hd) hplaced.tail
      rw [List.flatMap_cons, List.length_append, ← Nat.add_assoc, List.length_cons]
      omega

theorem Block.indexAt_le {p : Program} {b : Block} {start : Nat} (h : p.Has (b.commands start)) :
    p.indexAt start ≤ p.indexAt (start + b.size) := by
  have hle := h.indexAt_add_le (b.placed_commands start)
  rw [b.length_bytes_commands] at hle
  omega

theorem indexAt_lt_of_chain {p : Program} {anyOf : Bool} {body exit : Nat} {last : Clause}
    {chain : List Clause} {start : Nat}
    (h : p.Has (chainCommands anyOf body exit last chain start)) :
    p.indexAt start < p.indexAt (start + chainSize last chain) := by
  have hle := h.indexAt_add_le (placed_chainCommands _ _ _ _ _ _)
  have hpos := List.length_pos_iff.mpr (chainCommands_ne_nil anyOf body exit last chain start)
  rw [length_bytes_chainCommands] at hle
  omega

/-- A program that was assembled from a structured one: it has its commands and an END, and starts
with a behavior unless there is nothing in it. -/
structure Block.Assembled (b : Block) (p : Program) : Prop where
  has : p.Has (b.commands 0)
  finish : ∃ i, p.instructions[p.indexAt b.size]? = some i ∧ i.operation = .finish
  empty : b = .done → p.indexAt 0 = 0
  entry : b ≠ .done → p.Follows 0 (p.indexAt 0) ∧
    ∃ i, p.instructions[0]? = some i ∧ i.operation = .behaviour

theorem Block.ReadAs.assembled {b : Block} {source : SceneSource} {id : ScriptId}
    {parsed : ParsedScript} {all : List Command} (h : b.ReadAs source id parsed all)
    (hb : b.InScene source.layout) : b.Assembled (source.program .standard parsed) := by
  have hcode : ∀ c ∈ b.all, ∀ o, c.offset = some o → ∃ i,
      (source.program .standard parsed).instructions[
        (source.program .standard parsed).indexAt o]? = some i ∧
        c.Bound (source.program .standard parsed).indexAt i := by
    intro c hc o ho
    have hget := h.getElem?_indexAt hc ho
    have hi := source.getElem?_instructions .standard h.found
      ((source.program .standard parsed).indexAt o)
    rw [hget, Option.map_some] at hi
    exact ⟨_, hi, (h.resolved hb (Array.mem_of_getElem? hget)).bound⟩
  refine ⟨⟨fun c hc => hcode c (List.mem_append_left _ hc), fun c hc o ho => h.follows hc ho⟩,
    ?_, ?_, ?_⟩
  · obtain ⟨i, hi, hbound⟩ := hcode (endCommand b.size)
      (List.mem_append_right _ List.mem_cons_self) b.size rfl
    refine ⟨i, hi, ?_⟩
    rw [Instruction.operation, hbound.opcode, endCommand, opcodeOf_finish]
    rfl
  · rintro rfl
    have hcommands := h.commands
    rw [h.empty rfl] at hcommands
    have hcommands' : parsed.commands.toList = [] ++ endCommand 0 :: [] := hcommands
    exact source.indexAt_program h.found hcommands' rfl (by simp)
  · intro hne
    obtain ⟨first, rest, hfirst⟩ := List.exists_cons_of_ne_nil (b.commands_ne_nil hne 0)
    have hsplit : b.all = [] ++ first :: (rest ++ [endCommand b.size]) := by
      rw [Block.all, hfirst]
      simp
    obtain ⟨u, v, hcommands, hu, -⟩ := h.split hsplit
    have hoffset : first.offset = some 0 := by simpa using b.placed_all [] first _ hsplit
    have hindex := h.indexAt hsplit hu hcommands hoffset
    have hmarkers : ∀ d ∈ u, d = endIfCommand := fun d hd => by simpa using hu.mem d hd
    rw [b.lead_of_ne hne] at hcommands hindex
    have hcommands' : parsed.commands.toList = [] ++ behaviorCommand :: (u ++ first :: v) := by
      rw [hcommands]
      simp
    refine ⟨?_, _, source.getElem?_program h.found hcommands', ?_⟩
    · have hfollows := source.follows_program h.found hcommands' hmarkers
      have hlength : ([behaviorCommand] ++ u).length = ([] : List Command).length + 1 + u.length := by
        simp only [List.length_append, List.length_cons, List.length_nil]
      rwa [hindex, hlength]
    · rw [SceneSource.instruction_operation, operation_behaviorCommand]

end SceneScript
