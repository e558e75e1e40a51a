import SceneScript.Proofs.Assembly

/-! # Switches

`Switch` is the language of multiway branches that life scripts are written in: the value of a
condition is put to the labels of one arm after the other, and the first arm with a label that
accepts it runs; if there is none, a default part runs or nothing does.

* `Switch.all` lays a switch out. Every label of an arm but the last leads to the body of the arm if
  it accepts the value; the last one leads to what is behind the arm if it does not. The body leaves
  for the end of the switch, which has a command of its own or not.
* `Switch.script` is the script of a switch: its commands and an END, in bytes.
* `SwitchPart` says what the commands inside a switch are; all of their jumps lead to commands
  (`Switch.InScene.offset_of_jump`). -/

namespace SceneScript

/-! ### Programs -/

/-- An arm of a switch: its labels, the last one apart, and what is to be done if one of them accepts
the value. -/
structure Arm where
  others : List Test
  last : Test
  body : List GameCommand

/-- A switch: the condition whose value is put to the arms, the default part, and whether the end
has a command of its own. -/
structure Switch where
  condition : Condition
  arms : List Arm
  fallback : Option (List GameCommand)
  closed : Bool

/-- Commands of the game in a row. -/
def straight (body : List GameCommand) : Block := body.foldr .call .done

/-- An arm of the scene, with labels for the values of a predicate. -/
structure Arm.InScene (layout : Layout) (predicate : Predicate) (a : Arm) : Prop where
  others : ∀ t ∈ a.others, t.Conforms .standard predicate
  last : a.last.Conforms .standard predicate
  body : ∀ c ∈ a.body, c.InScene layout

/-- A switch of the scene, about a question to the game. -/
structure Switch.InScene (layout : Layout) (s : Switch) : Prop where
  condition : s.condition.Conforms .standard
  hosted : s.condition.predicate.source = .host
  param : ∀ a ∈ s.condition.param, a.InScene layout
  arms : ∀ a ∈ s.arms, a.InScene layout s.condition.predicate
  fallback : ∀ body ∈ s.fallback, ∀ c ∈ body, c.InScene layout

/-! ### Layout -/

/-- The command that opens a switch. -/
def Condition.opening (k : Condition) (start : Nat) : Command where
  opcode := opcodeOf .switch
  condition := some k
  offset := some start

/-- A label as a command: a jump to `target`, taken as the operation says. -/
def Test.label (t : Test) (o : Operation) (start target : Nat) : Command where
  opcode := opcodeOf o
  args := [⟨.jump, .number target⟩]
  test := some t
  offset := some start

/-- The jump out of a switch. -/
def breakCommand (start target : Nat) : Command where
  opcode := opcodeOf .breakOff
  args := [⟨.jump, .number target⟩]
  offset := some start

/-- A command that is nothing but its opcode. -/
def bareCommand (o : Operation) (start : Nat) : Command where
  opcode := opcodeOf o
  offset := some start

/-- The bytes of a label. -/
def Test.size (t : Test) : Nat := 3 + t.bytes.length

/-- The bytes of the labels of an arm. -/
def labelsSize (last : Test) : List Test → Nat
  | [] => last.size
  | t :: rest => t.size + labelsSize last rest

/-- The labels of an arm from an offset on: one that accepts leads to `body` at once, and if the last
one does not accept it leads to `next`. -/
def labelCommands (body next : Nat) (last : Test) : List Test → Nat → List Command
  | [], start => [last.label .caseArm start next]
  | t :: rest, start =>
    t.label .orCaseArm start body :: labelCommands body next last rest (start + t.size)

namespace Arm

/-- Where the body of an arm starts. -/
def inner (a : Arm) (start : Nat) : Nat := start + labelsSize a.last a.others

/-- Where an arm leaves the switch. -/
def exit (a : Arm) (start : Nat) : Nat := a.inner start + (straight a.body).size

/-- What is behind an arm. The jump out of it has three bytes. -/
def next (a : Arm) (start : Nat) : Nat := a.exit start + 3

/-- An arm from an offset on, in a switch that ends at `finish`. -/
def commands (a : Arm) (finish start : Nat) : List Command :=
  labelCommands (a.inner start) (a.next start) a.last a.others start ++
    ((straight a.body).commands (a.inner start) ++ [breakCommand (a.exit start) finish])

end Arm

/-- What is behind arms. -/
def armsNext : List Arm → Nat → Nat
  | [], start => start
  | a :: rest, start => armsNext rest (a.next start)

/-- Arms from an offset on, in a switch that ends at `finish`. -/
def armsCommands (finish : Nat) : List Arm → Nat → List Command
  | [], _ => []
  | a :: rest, start => a.commands finish start ++ armsCommands finish rest (a.next start)

/-- The default part from an offset on. -/
def fallbackCommands : Option (List GameCommand) → Nat → List Command
  | none, _ => []
  | some body, start => bareCommand .defaultArm start :: (straight body).commands (start + 1)

/-- What is behind the default part. -/
def fallbackNext : Option (List GameCommand) → Nat → Nat
  | none, start => start
  | some body, start => start + 1 + (straight body).size

/-- Arms and the default part behind them. -/
def branchCommands (finish : Nat) (arms : List Arm) (fallback : Option (List GameCommand))
    (start : Nat) : List Command :=
  armsCommands finish arms start ++ fallbackCommands fallback (armsNext arms start)

namespace Switch

/-- Where the arms of a switch start. -/
def armsStart (s : Switch) : Nat := 1 + s.condition.bytes.length

/-- Where the default part of a switch starts. -/
def fallbackStart (s : Switch) : Nat := armsNext s.arms s.armsStart

/-- The end of a switch. -/
def finish (s : Switch) : Nat := fallbackNext s.fallback s.fallbackStart

/-- The commands inside a switch. -/
def inside (s : Switch) : List Command :=
  branchCommands s.finish s.arms s.fallback s.armsStart

/-- The commands behind a switch: its end, if it has a command of its own, and the END. -/
def tail (s : Switch) : List Command :=
  if s.closed then [bareCommand .endSwitch s.finish, endCommand (s.finish + 1)]
  else [endCommand s.finish]

/-- The commands of the script of a switch. -/
def all (s : Switch) : List Command := s.condition.opening 0 :: (s.inside ++ s.tail)

/-- The script of a switch. -/
def script (s : Switch) : List UInt8 := s.all.flatMap Command.bytes

end Switch

/-! ### The opcodes of a layout -/

/-- The operations of labels. -/
def labelOperations : List Operation := [.caseArm, .orCaseArm]

/-- The operations of commands without arguments. -/
def bareOperations : List Operation := [.defaultArm, .endSwitch, .finish]

theorem opcodeOf_switch :
    opcodeOf .switch = (Opcode.engine 0x71 "SWITCH" .switch []).conditionOnly := by
  decide +kernel

theorem opcodeOf_breakOff : opcodeOf .breakOff = .engine 0x75 "BREAK" .breakOff [.jump] := by
  decide +kernel

theorem opcode?_opcodeOf_switch : ∀ o ∈ .switch :: .breakOff :: (labelOperations ++ bareOperations),
    Catalog.standard.opcode? .life (opcodeOf o).code = some (opcodeOf o) := by
  decide +kernel

/-- What labels have in common, whatever way they jump. -/
theorem opcodeOf_label : ∀ o ∈ labelOperations,
    (opcodeOf o).operation = o ∧ (opcodeOf o).slots = [.jump] ∧ (opcodeOf o).argsFirst = true ∧
      (opcodeOf o).hasCondition = false ∧ (opcodeOf o).hasOperator = true := by
  decide +kernel

/-- What commands without arguments have in common. -/
theorem opcodeOf_bare : ∀ o ∈ bareOperations,
    (opcodeOf o).operation = o ∧ (opcodeOf o).slots = [] ∧
      (opcodeOf o).hasCondition = false ∧ (opcodeOf o).hasOperator = false := by
  decide +kernel

example : labelOperations.map (fun o => (opcodeOf o).name) = ["CASE", "OR_CASE"] := by
  decide +kernel

/-! ### Lengths and offsets -/

theorem length_bytes_opening (k : Condition) (start : Nat) :
    (k.opening start).bytes.length = 1 + k.bytes.length := by
  simp [Command.bytes, Condition.opening, opcodeOf_switch, Opcode.engine, Opcode.conditionOnly,
    Command.guardBytes, Command.argsBytes, Nat.add_comm]

theorem length_bytes_label (t : Test) {o : Operation} (ho : o ∈ labelOperations)
    (start target : Nat) : (t.label o start target).bytes.length = t.size := by
  obtain ⟨-, -, hfirst, -⟩ := opcodeOf_label o ho
  have hjump : Argument.bytes ⟨.jump, .number target⟩ = WireType.bytes .uint16 target := rfl
  simp only [Command.bytes, Test.label, hfirst, Command.guardBytes, Command.argsBytes, if_true,
    List.length_cons, List.length_append, Option.toList_some, Option.toList_none, List.flatMap_cons,
    List.flatMap_nil, List.append_nil, List.nil_append, hjump, length_bytes_jump, Test.size]
  omega

theorem length_bytes_breakCommand (start target : Nat) :
    (breakCommand start target).bytes.length = 3 := by
  have hjump : Argument.bytes ⟨.jump, .number target⟩ = WireType.bytes .uint16 target := rfl
  simp [Command.bytes, breakCommand, opcodeOf_breakOff, Opcode.engine, Command.guardBytes,
    Command.argsBytes, hjump, length_bytes_jump]

theorem length_bytes_bareCommand (o : Operation) (start : Nat) :
    (bareCommand o start).bytes.length = 1 := by
  simp [Command.bytes, bareCommand, Command.guardBytes, Command.argsBytes]

theorem length_bytes_labelCommands (body next : Nat) (last : Test) (others : List Test)
    (start : Nat) :
    ((labelCommands body next last others start).flatMap Command.bytes).length =
      labelsSize last others := by
  induction others generalizing start with
  | nil =>
      rw [labelCommands, List.flatMap_singleton]
      exact length_bytes_label last (by decide) start next
  | cons t rest ih =>
      rw [labelCommands, List.flatMap_cons, List.length_append, ih, labelsSize,
        length_bytes_label t (by decide)]

/-- An arm ends where the next one starts. -/
theorem Arm.length_bytes_commands (a : Arm) (finish start : Nat) :
    start + ((a.commands finish start).flatMap Command.bytes).length = a.next start := by
  simp only [Arm.commands, List.flatMap_append, List.length_append, length_bytes_labelCommands,
    Block.length_bytes_commands, List.flatMap_singleton, length_bytes_breakCommand, Arm.next,
    Arm.exit, Arm.inner]
  omega

theorem length_bytes_armsCommands (finish : Nat) (arms : List Arm) (start : Nat) :
    start + ((armsCommands finish arms start).flatMap Command.bytes).length =
      armsNext arms start := by
  induction arms generalizing start with
  | nil => rfl
  | cons a rest ih =>
      have ha := a.length_bytes_commands finish start
      have hrest := ih (a.next start)
      rw [armsCommands, List.flatMap_append, List.length_append, armsNext]
      omega

theorem length_bytes_fallbackCommands (fallback : Option (List GameCommand)) (start : Nat) :
    start + ((fallbackCommands fallback start).flatMap Command.bytes).length =
      fallbackNext fallback start := by
  cases fallback with
  | none => rfl
  | some body =>
      rw [fallbackCommands, List.flatMap_cons, List.length_append, length_bytes_bareCommand,
        Block.length_bytes_commands, fallbackNext]
      omega

theorem length_bytes_branchCommands (finish : Nat) (arms : List Arm)
    (fallback : Option (List GameCommand)) (start : Nat) :
    start + ((branchCommands finish arms fallback start).flatMap Command.bytes).length =
      fallbackNext fallback (armsNext arms start) := by
  have harms := length_bytes_armsCommands finish arms start
  have hfallback := length_bytes_fallbackCommands fallback (armsNext arms start)
  rw [branchCommands, List.flatMap_append, List.length_append]
  omega

/-! ### Places -/

theorem placed_labelCommands (body next : Nat) (last : Test) (others : List Test) (start : Nat) :
    PlacedFrom start (labelCommands body next last others start) := by
  induction others generalizing start with
  | nil => exact placedFrom_cons rfl (placedFrom_nil _)
  | cons t rest ih =>
      refine placedFrom_cons rfl ?_
      rw [length_bytes_label t (by decide)]
      exact ih _

theorem Arm.placed_body (a : Arm) (finish start : Nat) :
    PlacedFrom (a.inner start)
      ((straight a.body).commands (a.inner start) ++ [breakCommand (a.exit start) finish]) := by
  refine placedFrom_append (Block.placed_commands _ _) ?_
  rw [Block.length_bytes_commands]
  exact placedFrom_cons rfl (placedFrom_nil _)

theorem Arm.placed_commands (a : Arm) (finish start : Nat) :
    PlacedFrom start (a.commands finish start) := by
  refine placedFrom_append (placed_labelCommands _ _ _ _ _) ?_
  rw [length_bytes_labelCommands]
  exact a.placed_body finish start

theorem placed_armsCommands (finish : Nat) (arms : List Arm) (start : Nat) :
    PlacedFrom start (armsCommands finish arms start) := by
  induction arms generalizing start with
  | nil => exact placedFrom_nil start
  | cons a rest ih =>
      refine placedFrom_append (a.placed_commands finish start) ?_
      rw [a.length_bytes_commands]
      exact ih _

theorem placed_fallbackCommands (fallback : Option (List GameCommand)) (start : Nat) :
    PlacedFrom start (fallbackCommands fallback start) := by
  cases fallback with
  | none => exact placedFrom_nil start
  | some body =>
      refine placedFrom_cons rfl ?_
      rw [length_bytes_bareCommand]
      exact Block.placed_commands _ _

theorem placed_branchCommands (finish : Nat) (arms : List Arm)
    (fallback : Option (List GameCommand)) (start : Nat) :
    PlacedFrom start (branchCommands finish arms fallback start) := by
  refine placedFrom_append (placed_armsCommands finish arms start) ?_
  rw [length_bytes_armsCommands]
  exact placed_fallbackCommands _ _

theorem Switch.placed_tail (s : Switch) : PlacedFrom s.finish s.tail := by
  unfold Switch.tail
  split
  · refine placedFrom_cons rfl ?_
    rw [length_bytes_bareCommand]
    exact placedFrom_cons rfl (placedFrom_nil _)
  · exact placedFrom_cons rfl (placedFrom_nil _)

/-! ### The commands of a layout -/

/-- The commands inside switches. -/
inductive SwitchPart (layout : Layout) (predicate : Predicate) : Command → Prop
  | label {t : Test} {o : Operation} (start target : Nat) : t.Conforms .standard predicate →
      o ∈ labelOperations → SwitchPart layout predicate (t.label o start target)
  | call {c : GameCommand} (start : Nat) : c.InScene layout →
      SwitchPart layout predicate (c.command start)
  | leave (start target : Nat) : SwitchPart layout predicate (breakCommand start target)
  | fallback (start : Nat) : SwitchPart layout predicate (bareCommand .defaultArm start)

/-- Commands in a row are commands of the game, each in its place. -/
theorem mem_straight {body : List GameCommand} {start : Nat} {c : Command}
    (hc : c ∈ (straight body).commands start) : ∃ d ∈ body, ∃ o, c = d.command o := by
  induction body generalizing start with
  | nil => cases hc
  | cons first rest ih =>
      rcases List.mem_cons.mp hc with rfl | hc
      · exact ⟨first, List.mem_cons_self, start, rfl⟩
      · obtain ⟨d, hd, o, rfl⟩ := ih hc
        exact ⟨d, List.mem_cons_of_mem first hd, o, rfl⟩

section
variable {layout : Layout} {predicate : Predicate}

theorem part_straight {body : List GameCommand} (h : ∀ c ∈ body, c.InScene layout) (start : Nat) :
    ∀ c ∈ (straight body).commands start, SwitchPart layout predicate c := by
  intro c hc
  obtain ⟨d, hd, o, rfl⟩ := mem_straight hc
  exact .call o (h d hd)

theorem part_labelCommands {last : Test} {others : List Test}
    (hothers : ∀ t ∈ others, t.Conforms .standard predicate)
    (hlast : last.Conforms .standard predicate) (body next start : Nat) :
    ∀ c ∈ labelCommands body next last others start, SwitchPart layout predicate c := by
  induction others generalizing start with
  | nil =>
      intro c hc
      rw [List.mem_singleton.mp hc]
      exact .label start next hlast (by decide)
  | cons t rest ih =>
      rw [List.forall_mem_cons] at hothers
      rw [labelCommands, List.forall_mem_cons]
      exact ⟨.label start body hothers.1 (by decide), ih hothers.2 _⟩

theorem Arm.InScene.part {a : Arm} (h : a.InScene layout predicate) (finish start : Nat) :
    ∀ c ∈ a.commands finish start, SwitchPart layout predicate c := by
  rw [Arm.commands, List.forall_mem_append, List.forall_mem_append]
  refine ⟨part_labelCommands h.others h.last _ _ _, part_straight h.body _, ?_⟩
  intro c hc
  rw [List.mem_singleton.mp hc]
  exact .leave _ _

theorem part_armsCommands {arms : List Arm} (h : ∀ a ∈ arms, a.InScene layout predicate)
    (finish start : Nat) : ∀ c ∈ armsCommands finish arms start, SwitchPart layout predicate c := by
  induction arms generalizing start with
  | nil => intro c hc; cases hc
  | cons a rest ih =>
      rw [List.forall_mem_cons] at h
      rw [armsCommands, List.forall_mem_append]
      exact ⟨h.1.part finish start, ih h.2 _⟩

theorem Switch.InScene.part_inside {s : Switch} (h : s.InScene layout) :
    ∀ c ∈ s.inside, SwitchPart layout s.condition.predicate c := by
  rw [Switch.inside, branchCommands, List.forall_mem_append]
  refine ⟨part_armsCommands h.arms _ _, ?_⟩
  cases hfallback : s.fallback with
  | none => intro c hc; cases hc
  | some body =>
      rw [fallbackCommands, List.forall_mem_cons]
      exact ⟨.fallback _, part_straight (h.fallback body hfallback) _⟩

theorem conforms_bareCommand {o : Operation} (ho : o ∈ bareOperations) (start : Nat)
    (enclosing : Option Predicate) : (bareCommand o start).Conforms .standard .life enclosing := by
  obtain ⟨hop, hslots, hcond, htest⟩ := opcodeOf_bare o ho
  have hhosted : ∀ o ∈ bareOperations, o.isHosted = false := by decide
  refine ⟨opcode?_opcodeOf_switch o (by simp [ho]), ?_, ⟨hcond.symm, by simp [bareCommand],
    htest.symm, by simp [bareCommand]⟩⟩
  refine ⟨?_, by simp [bareCommand]⟩
  rw [extraSlot?_eq_none (by rw [bareCommand, hop]; exact hhosted o ho), bareCommand, hslots]
  rfl

/-- A part of a switch whose jumps fit is read as it is inside the switch. -/
theorem SwitchPart.conforms {c : Command} (h : SwitchPart layout predicate c)
    (hjumps : ∀ t ∈ c.jumps, t < 65536) : c.Conforms .standard .life (some predicate) := by
  cases h with
  | @label t o start target ht ho =>
      obtain ⟨hop, hslots, -, hcond, htest⟩ := opcodeOf_label o ho
      have hhosted : ∀ o ∈ labelOperations, o.isHosted = false := by decide
      have htarget : target < 65536 := by
        have := hjumps target List.mem_cons_self
        omega
      refine ⟨opcode?_opcodeOf_switch o (by simp [ho]), ?_, ⟨hcond.symm, by simp [Test.label],
        htest.symm, ?_⟩⟩
      · exact argumentsConform_jump hslots (by rw [Test.label, hop]; exact hhosted o ho) htarget
      · intro t' ht'
        obtain rfl := Option.some.inj ht'
        exact ⟨predicate, rfl, ht⟩
  | call start hc => exact (Laid.call start hc).conforms hjumps _
  | leave start target =>
      have htarget : target < 65536 := by
        have := hjumps target List.mem_cons_self
        omega
      refine ⟨opcode?_opcodeOf_switch .breakOff (by decide), ?_, ?_⟩
      · rw [breakCommand, opcodeOf_breakOff]
        exact argumentsConform_jump rfl rfl htarget
      · rw [breakCommand, opcodeOf_breakOff]
        exact ⟨rfl, by simp, rfl, by simp⟩
  | fallback start => exact conforms_bareCommand (by decide) start _

theorem conforms_opening {k : Condition} (hk : k.Conforms .standard) (start : Nat)
    (enclosing : Option Predicate) : (k.opening start).Conforms .standard .life enclosing := by
  refine ⟨opcode?_opcodeOf_switch .switch (by decide), ?_, ?_⟩
  · rw [Condition.opening, opcodeOf_switch]
    exact ⟨rfl, by simp⟩
  · rw [Condition.opening, opcodeOf_switch]
    refine ⟨rfl, ?_, rfl, by simp⟩
    intro k' hk'
    obtain rfl := Option.some.inj hk'
    exact hk

/-! ### Jumps -/

theorem jumps_labelCommands {body next : Nat} {last : Test} {others : List Test} {start : Nat}
    {c : Command} (hc : c ∈ labelCommands body next last others start) :
    ∀ t ∈ c.jumps, t = body ∨ t = next := by
  intro t ht
  induction others generalizing start with
  | nil =>
      rw [List.mem_singleton.mp hc] at ht
      exact .inr (List.mem_singleton.mp ht)
  | cons first rest ih =>
      rcases List.mem_cons.mp hc with rfl | hc
      · exact .inl (List.mem_singleton.mp ht)
      · exact ih hc

/-- The jumps of an arm lead out of the switch, into the arm or behind it. -/
theorem Arm.InScene.landsIn_of_jump {a : Arm} (ha : a.InScene layout predicate) {finish start : Nat}
    {c : Command} (hc : c ∈ a.commands finish start) {t : Int} (ht : t ∈ c.jumps) :
    t = finish ∨ ∃ n : Nat, t = n ∧ LandsIn (a.commands finish start) (a.next start) n := by
  rcases List.mem_append.mp hc with hc | hc
  · right
    rcases jumps_labelCommands hc t ht with rfl | rfl
    · refine ⟨a.inner start, rfl, LandsIn.right ?_ _⟩
      exact ((straight a.body).landsIn_start (a.inner start)).append
        (.inr ⟨_, List.mem_singleton_self _, rfl⟩)
    · exact ⟨a.next start, rfl, .inl rfl⟩
  rcases List.mem_append.mp hc with hc | hc
  · obtain ⟨d, hd, o, rfl⟩ := mem_straight hc
    rw [(ha.body d hd).jumps_command] at ht
    cases ht
  · rw [List.mem_singleton.mp hc] at ht
    exact .inl (List.mem_singleton.mp ht)

theorem landsIn_armsCommands (finish : Nat) (arms : List Arm) (start : Nat) :
    LandsIn (armsCommands finish arms start) (armsNext arms start) start := by
  have h := (placed_armsCommands finish arms start).landsIn
  rwa [length_bytes_armsCommands] at h

theorem landsIn_of_arms_jump {arms : List Arm} (harms : ∀ a ∈ arms, a.InScene layout predicate)
    {finish start : Nat} {c : Command} (hc : c ∈ armsCommands finish arms start) {t : Int}
    (ht : t ∈ c.jumps) :
    t = finish ∨ ∃ n : Nat, t = n ∧
      LandsIn (armsCommands finish arms start) (armsNext arms start) n := by
  induction arms generalizing start with
  | nil => cases hc
  | cons a rest ih =>
      rw [List.forall_mem_cons] at harms
      rcases List.mem_append.mp hc with hc | hc
      · rcases harms.1.landsIn_of_jump hc ht with hfinish | ⟨n, rfl, hn⟩
        · exact .inl hfinish
        · exact .inr ⟨n, rfl, hn.append (landsIn_armsCommands finish rest (a.next start))⟩
      · rcases ih harms.2 hc with hfinish | ⟨n, rfl, hn⟩
        · exact .inl hfinish
        · exact .inr ⟨n, rfl, hn.right _⟩

/-- **Jumps lead to commands**: every jump of a switch leads to a command behind the first. -/
theorem Switch.InScene.offset_of_jump {s : Switch} (h : s.InScene layout) {c : Command}
    (hc : c ∈ s.inside) {t : Int} (ht : t ∈ c.jumps) :
    ∃ n : Nat, t = n ∧ ∃ d ∈ s.inside ++ s.tail, d.offset = some n := by
  have hend : ∃ d ∈ s.inside ++ s.tail, d.offset = some s.finish := by
    unfold Switch.tail
    split
    · exact ⟨bareCommand .endSwitch s.finish, by simp, rfl⟩
    · exact ⟨endCommand s.finish, by simp, rfl⟩
  have hlands : ∀ n, LandsIn s.inside s.finish n → ∃ d ∈ s.inside ++ s.tail, d.offset = some n := by
    rintro n (rfl | ⟨d, hd, hn⟩)
    · exact hend
    · exact ⟨d, List.mem_append_left _ hd, hn⟩
  have hfallback : LandsIn (fallbackCommands s.fallback s.fallbackStart) s.finish s.fallbackStart := by
    have h := (placed_fallbackCommands s.fallback s.fallbackStart).landsIn
    rwa [length_bytes_fallbackCommands] at h
  rcases List.mem_append.mp hc with hc | hc
  · rcases landsIn_of_arms_jump h.arms hc ht with rfl | ⟨n, rfl, hn⟩
    · exact ⟨s.finish, rfl, hend⟩
    · exact ⟨n, rfl, hlands n (hn.append hfallback)⟩
  · -- The default part has no jumps.
    cases hbody : s.fallback with
    | none => rw [hbody] at hc; cases hc
    | some body =>
        rw [hbody] at hc
        rcases List.mem_cons.mp hc with rfl | hc
        · cases ht
        · obtain ⟨d, hd, o, rfl⟩ := mem_straight hc
          rw [(h.fallback body hbody d hd).jumps_command] at ht
          cases ht

end

end SceneScript
