import SceneScript.Proofs.Reading

/-! # The parse loop

`ParseRun` is the parse loop without its bound: it reads commands one after the other until the
bytes end (`done`) or a command fails (`failed`). The bound of `ParseState.run` is never met, since
every command takes a byte (`parseRun_run`), so a fact about scripts is an induction over
`ParseRun`.

* `ParseRun.reads`: what lies between the first cursor and the place where the loop stops is the
  writing of the commands that were read, each at the offset it carries; all other commands were
  added without bytes.
* `writtenBack_parseScript`: writing the commands of a parsed script back gives the bytes up to the
  failure, or all of them.
* `ParseRun.commands_conform`: every command is one the catalog allows, or an added one.
* `parseScript_indexOf?`: the offset of a command leads to the command, or to the start of a behavior
  right before it.
* `leads_of_indexOf?`: conversely, an offset that leads anywhere leads to the command that was read
  there, or to the start of a behavior before it. -/

namespace SceneScript

/-! ### Before a command is read -/

namespace ParseState

/-- The state in which the command under the cursor is read: the blocks that end here are closed,
the offset is noted and a behavior that is due has started. -/
def ready (s : ParseState) (catalog : Catalog) (kind : ScriptKind) (c : Cursor) : ParseState :=
  ((s.closeBlocks catalog kind c).enter c.position).startBehavior catalog (c.peek?.getD 0)

/-- The index noted for the offset of the command under the cursor. -/
def entry (s : ParseState) (catalog : Catalog) (kind : ScriptKind) (c : Cursor) : Nat :=
  (s.closeBlocks catalog kind c).commands.size

end ParseState

/-- A command the parser adds by itself: the end of a block or the start of a behavior. -/
inductive Added (catalog : Catalog) : Command → Prop
  | endIf : Added catalog (.implicit (catalog.marker .endIf) [])
  | endSwitch : Added catalog (.implicit (catalog.marker .endSwitch) [])
  | behaviour (n : Int) : Added catalog (.implicit (catalog.marker .behaviour) [⟨.label, .number n⟩])

theorem Added.offset_eq_none {catalog : Catalog} {c : Command} (h : Added catalog c) :
    c.offset = none := by
  cases h <;> rfl

/-- Whether a command was added, for an operation. -/
def Command.isMarker (c : Command) (o : Operation) : Bool :=
  c.isImplicit && c.opcode.operation == o

theorem Command.isMarker_iff {c : Command} {o : Operation} :
    c.isMarker o = true ↔ c.offset = none ∧ c.opcode.operation = o := by
  rw [isMarker, Bool.and_eq_true, isImplicit, Option.isNone_iff_eq_none, beq_iff_eq]

/-- A command that was read is not an added one. -/
theorem Command.isImplicit_eq_false {c : Command} {n : Nat} (h : c.offset = some n) :
    c.isImplicit = false := by
  rw [isImplicit, h]
  rfl

theorem Command.not_isMarker_of_offset {c : Command} {n : Nat} (h : c.offset = some n)
    (o : Operation) : c.isMarker o = false := by
  rw [isMarker, isImplicit_eq_false h, Bool.false_and]

/-- Where a list that was added to is split: at what was added, or before it. -/
theorem split_concat {α : Type} {l u v : List α} {x m : α} (h : l ++ [x] = u ++ m :: v) :
    (u = l ∧ m = x ∧ v = []) ∨ ∃ w, v = w ++ [x] ∧ l = u ++ m :: w := by
  rcases List.eq_nil_or_concat v with rfl | ⟨w, y, rfl⟩
  · obtain ⟨rfl, hx⟩ := List.append_inj' h rfl
    exact .inl ⟨rfl, (List.cons.inj hx).1.symm, rfl⟩
  · rw [List.concat_eq_append] at h ⊢
    rw [← List.cons_append, ← List.append_assoc] at h
    obtain ⟨rfl, hx⟩ := List.append_inj' h rfl
    exact .inr ⟨w, by rw [hx], rfl⟩

/-- A list is split at each of its indices. -/
theorem split_of_getElem? {α : Type} {l : List α} {k : Nat} {x : α} (h : l[k]? = some x) :
    l = l.take k ++ x :: l.drop (k + 1) := by
  obtain ⟨hlt, rfl⟩ := List.getElem?_eq_some_iff.mp h
  rw [List.getElem_cons_drop, List.take_append_drop]

theorem push_append_replicate {α : Type} (xs : Array α) (x : α) (n : Nat) :
    xs.push x ++ Array.replicate n x = xs ++ Array.replicate (n + 1) x := by
  rw [← Array.toList_inj]
  simp [List.replicate_succ]

namespace ParseState

variable (catalog : Catalog) (kind : ScriptKind)

theorem closeIfs_commands (s : ParseState) (position : Nat) :
    (s.closeIfs catalog position).commands.toList = s.commands.toList ++
      List.replicate (s.blocks.takeWhile (· == position)).length
        (.implicit (catalog.marker .endIf) []) := by
  simp [closeIfs]

theorem closeSwitches_commands (s : ParseState) (position : Nat) :
    (s.closeSwitches catalog position).commands.toList = s.commands.toList ++
      List.replicate (s.switches.takeWhile (·.reach == some position)).length
        (.implicit (catalog.marker .endSwitch) []) := by
  simp [closeSwitches]

/-- What adding the end of one conditional block keeps, closing them all keeps. -/
theorem closeIfs_induct {catalog : Catalog} {position : Nat} {P : ParseState → Prop}
    (hclose : ∀ (s : ParseState) (rest : List Nat), P s → s.blocks = position :: rest →
      P { s with
        commands := s.commands.push (.implicit (catalog.marker .endIf) [])
        blocks := rest })
    {s : ParseState} (h : P s) : P (s.closeIfs catalog position) := by
  obtain ⟨commands, offsets, behaviors, tracks, blocks, switches, next, due⟩ := s
  induction blocks generalizing commands with
  | nil => simpa [closeIfs] using h
  | cons b rest ih =>
      by_cases hend : b = position
      · subst hend
        have hrest := ih _ (hclose _ rest h rfl)
        simpa [closeIfs, push_append_replicate] using hrest
      · simpa [closeIfs, hend] using h

/-- What adding the end of one switch keeps, closing them all keeps. -/
theorem closeSwitches_induct {catalog : Catalog} {position : Nat} {P : ParseState → Prop}
    (hclose : ∀ (s : ParseState) (f : SwitchFrame) (rest : List SwitchFrame), P s →
      s.switches = f :: rest → f.reach = some position →
      P { s with
        commands := s.commands.push (.implicit (catalog.marker .endSwitch) [])
        switches := rest })
    {s : ParseState} (h : P s) : P (s.closeSwitches catalog position) := by
  obtain ⟨commands, offsets, behaviors, tracks, blocks, switches, next, due⟩ := s
  induction switches generalizing commands with
  | nil => simpa [closeSwitches] using h
  | cons f rest ih =>
      by_cases hend : f.reach = some position
      · have hrest := ih _ (hclose _ f rest h rfl hend)
        simpa [closeSwitches, push_append_replicate, hend] using hrest
      · simpa [closeSwitches, hend] using h

/-- Closing blocks adds the ends of blocks and nothing else. -/
theorem closeBlocks_commands (s : ParseState) (c : Cursor) :
    ∃ ends, (s.closeBlocks catalog kind c).commands.toList = s.commands.toList ++ ends ∧
      ∀ m ∈ ends, Added catalog m := by
  unfold closeBlocks
  split
  · refine ⟨_, closeIfs_commands catalog s c.position, ?_⟩
    intro m hm
    rw [List.eq_of_mem_replicate hm]
    exact .endIf
  · have h := closeSwitches_commands catalog (s.closeIfs catalog c.position) c.position
    rw [closeIfs_commands, List.append_assoc] at h
    refine ⟨_, h, ?_⟩
    intro m hm
    rcases List.mem_append.mp hm with hm | hm
    · rw [List.eq_of_mem_replicate hm]
      exact .endIf
    · rw [List.eq_of_mem_replicate hm]
      exact .endSwitch

theorem closeBlocks_offsets (s : ParseState) (c : Cursor) :
    (s.closeBlocks catalog kind c).offsets = s.offsets := by
  unfold closeBlocks
  split <;> rfl

/-- A behavior starts with one command added, or does not start. -/
theorem startBehavior_commands (s : ParseState) (code : UInt8) :
    (s.startBehavior catalog code).commands = s.commands ∨
      ∃ n : Int, (s.startBehavior catalog code).commands =
        s.commands.push (.implicit (catalog.marker .behaviour) [⟨.label, .number n⟩]) := by
  unfold startBehavior
  split
  · exact .inr ⟨s.nextBehavior, rfl⟩
  · exact .inl rfl

theorem startBehavior_offsets (s : ParseState) (code : UInt8) :
    (s.startBehavior catalog code).offsets = s.offsets := by
  unfold startBehavior
  split <;> rfl

theorem ready_offsets (s : ParseState) (c : Cursor) :
    (s.ready catalog kind c).offsets = s.offsets.insert c.position (s.entry catalog kind c) := by
  unfold ready entry
  rw [startBehavior_offsets, enter, closeBlocks_offsets]

/-- Only added commands come before the command under the cursor is read. -/
theorem ready_commands (s : ParseState) (c : Cursor) :
    ∃ added, (s.ready catalog kind c).commands.toList = s.commands.toList ++ added ∧
      ∀ m ∈ added, Added catalog m := by
  obtain ⟨ends, hends, hall⟩ := closeBlocks_commands catalog kind s c
  unfold ready
  rcases startBehavior_commands catalog ((s.closeBlocks catalog kind c).enter c.position)
    (c.peek?.getD 0) with h | ⟨n, h⟩
  · exact ⟨ends, by rw [h]; exact hends, hall⟩
  · refine ⟨ends ++ [.implicit (catalog.marker .behaviour) [⟨.label, .number n⟩]], ?_, ?_⟩
    · rw [h, Array.toList_push]
      change (s.closeBlocks catalog kind c).commands.toList ++ _ = _
      rw [hends, List.append_assoc]
    · intro m hm
      rcases List.mem_append.mp hm with hm | hm
      · exact hall m hm
      · rw [List.mem_singleton.mp hm]
        exact .behaviour n

/-- The command read at a cursor stands where its offset was noted, or one further on, behind the
start of a behavior. -/
theorem ready_size (s : ParseState) (c : Cursor) :
    (s.ready catalog kind c).commands.size = s.entry catalog kind c ∨
      (s.ready catalog kind c).commands.size = s.entry catalog kind c + 1 ∧
        ∃ n : Int, (s.ready catalog kind c).commands[s.entry catalog kind c]? =
          some (.implicit (catalog.marker .behaviour) [⟨.label, .number n⟩]) := by
  unfold ready entry
  rcases startBehavior_commands catalog ((s.closeBlocks catalog kind c).enter c.position)
    (c.peek?.getD 0) with h | ⟨n, h⟩
  · left
    rw [h]
    rfl
  · right
    refine ⟨?_, n, ?_⟩
    · rw [h, Array.size_push]
      rfl
    · rw [h]
      exact Array.getElem?_push_size

@[simp] theorem add_commands (s : ParseState) (command : Command) (index : Nat) :
    (s.add command index).commands = s.commands.push command := by
  unfold add track
  dsimp only
  repeat' split
  all_goals rfl

@[simp] theorem add_offsets (s : ParseState) (command : Command) (index : Nat) :
    (s.add command index).offsets = s.offsets := by
  unfold add track
  dsimp only
  repeat' split
  all_goals rfl

end ParseState

theorem jumpOffset_natCast {n : Nat} (h : n < 65536) : ParseState.jumpOffset n = n := by
  unfold ParseState.jumpOffset
  omega

/-! ### Runs of the loop -/

/-- The parse loop from a cursor and a state to the state and the failure, if any, in which it
stops. -/
inductive ParseRun (catalog : Catalog) (kind : ScriptKind) :
    Cursor → ParseState → ParseState → Option (Nat × ParseError) → Prop
  | done {c : Cursor} {s : ParseState} : c.atEnd = true → ParseRun catalog kind c s s none
  | failed {c : Cursor} {s : ParseState} {e : ParseError} : c.atEnd = false →
      (readCommand catalog kind (s.ready catalog kind c).enclosing c.position).run c = .error e →
      ParseRun catalog kind c s (s.ready catalog kind c) (some (c.position, e))
  | more {c after : Cursor} {s s' : ParseState} {command : Command}
      {stop : Option (Nat × ParseError)} : c.atEnd = false →
      (readCommand catalog kind (s.ready catalog kind c).enclosing c.position).run c =
        .ok (command, after) →
      ParseRun catalog kind after
        ((s.ready catalog kind c).add command (s.entry catalog kind c)) s' stop →
      ParseRun catalog kind c s s' stop

section
variable {catalog : Catalog} {kind : ScriptKind}

/-- The bound of the loop is never met when it is the number of bytes left. -/
theorem parseRun_run {fuel : Nat} {c : Cursor} {s : ParseState} (h : c.rest.length ≤ fuel) :
    ParseRun catalog kind c s (ParseState.run catalog kind fuel c s).1
      (ParseState.run catalog kind fuel c s).2 := by
  induction fuel generalizing c s with
  | zero =>
      refine .done ?_
      simpa [Cursor.atEnd] using h
  | succ fuel ih =>
      unfold ParseState.run
      cases hend : c.atEnd with
      | true => exact .done hend
      | false =>
          simp only [Bool.false_eq_true, if_false]
          cases hr : (readCommand catalog kind (s.ready catalog kind c).enclosing c.position).run c with
          | error e =>
              have hr' := hr
              unfold ParseState.ready at hr'
              simp only [hr']
              exact .failed hend hr
          | ok p =>
              obtain ⟨command, after⟩ := p
              obtain ⟨-, -, hp⟩ := readCommand_eq_ok_iff.mp hr
              have hlen : after.rest.length ≤ fuel := by
                have := congrArg List.length hp.1
                have := command.bytes_length_pos
                rw [List.length_append] at *
                omega
              have hr' := hr
              unfold ParseState.ready at hr'
              simp only [hr']
              exact .more hend hr (ih hlen)

/-- The byte under the cursor is the code of the command that is read there. -/
theorem peek?_of_readCommand {enclosing : Option Predicate} {start : Nat} {c after : Cursor}
    {command : Command}
    (h : (readCommand catalog kind enclosing start).run c = .ok (command, after)) :
    c.peek? = some command.opcode.code := by
  obtain ⟨-, -, hp⟩ := readCommand_eq_ok_iff.mp h
  simp [Cursor.peek?, hp.1, Command.bytes]

theorem ParseRun.eq_of_atEnd {c : Cursor} {s s' : ParseState} {stop : Option (Nat × ParseError)}
    (h : ParseRun catalog kind c s s' stop) (hend : c.atEnd = true) : s' = s ∧ stop = none := by
  cases h with
  | done => exact ⟨rfl, rfl⟩
  | failed h => rw [h] at hend; cases hend
  | more h => rw [h] at hend; cases hend

theorem ParseRun.next {c after : Cursor} {s s' : ParseState} {command : Command}
    {stop : Option (Nat × ParseError)} (h : ParseRun catalog kind c s s' stop)
    (hend : c.atEnd = false)
    (hr : (readCommand catalog kind (s.ready catalog kind c).enclosing c.position).run c =
      .ok (command, after)) :
    ParseRun catalog kind after
      ((s.ready catalog kind c).add command (s.entry catalog kind c)) s' stop := by
  cases h with
  | done h => rw [h] at hend; cases hend
  | failed _ h => rw [h] at hr; cases hr
  | more _ h hrest =>
      rw [h] at hr
      cases hr
      exact hrest

/-- A command that conforms is read where its bytes are. -/
theorem ParseRun.next_of_conforms {c : Cursor} {s s' : ParseState} {command : Command}
    {stop : Option (Nat × ParseError)} {rest : List UInt8}
    (h : ParseRun catalog kind c s s' stop)
    (hconf : command.Conforms catalog kind (s.ready catalog kind c).enclosing)
    (hoff : command.offset = some c.position) (hbytes : c.rest = command.bytes ++ rest) :
    ∃ after : Cursor, after.rest = rest ∧ after.position = c.position + command.bytes.length ∧
      ParseRun catalog kind after
        ((s.ready catalog kind c).add command (s.entry catalog kind c)) s' stop := by
  have hpasses : c.Passes command.bytes (c.advance command.bytes.length) := by
    rw [Cursor.passes_iff]
    exact ⟨⟨rest, hbytes.symm⟩, rfl⟩
  have hend : c.atEnd = false := by
    rw [Cursor.atEnd, hbytes]
    have := command.bytes_length_pos
    cases hb : command.bytes with
    | nil => simp [hb] at this
    | cons b bytes => rfl
  refine ⟨c.advance command.bytes.length, ?_, hpasses.position, h.next hend ?_⟩
  · rw [Cursor.rest_advance, hbytes, List.drop_left]
  · exact readCommand_eq_ok_iff.mpr ⟨hconf, hoff, hpasses⟩

/-! ### No byte is lost or invented -/

/-- The commands that were read from bytes. -/
def explicit (commands : List Command) : List Command := commands.filter fun c => !c.isImplicit

theorem explicit_append (u v : List Command) : explicit (u ++ v) = explicit u ++ explicit v :=
  List.filter_append u v

theorem explicit_eq_nil {commands : List Command} (h : ∀ m ∈ commands, Added catalog m) :
    explicit commands = [] := by
  rw [explicit, List.filter_eq_nil_iff]
  intro m hm
  simp [Command.isImplicit, (h m hm).offset_eq_none]

theorem explicit_singleton {command : Command} {o : Nat} (h : command.offset = some o) :
    explicit [command] = [command] := by
  simp [explicit, Command.isImplicit_eq_false h]

/-- Commands written one behind the other from an offset on carry the offsets they are written
at. -/
def PlacedFrom (start : Nat) (commands : List Command) : Prop :=
  ∀ before command after, commands = before ++ command :: after →
    command.offset = some (start + (before.flatMap Command.bytes).length)

theorem placedFrom_nil (start : Nat) : PlacedFrom start [] := by
  intro before command after h
  simp at h

theorem placedFrom_cons {start : Nat} {command : Command} {commands : List Command}
    (h : command.offset = some start)
    (hrest : PlacedFrom (start + command.bytes.length) commands) :
    PlacedFrom start (command :: commands) := by
  intro before other after he
  cases before with
  | nil =>
      obtain ⟨rfl, -⟩ := List.cons.inj he
      simpa using h
  | cons first before =>
      obtain ⟨rfl, hrest'⟩ := List.cons.inj he
      rw [hrest before other after hrest', List.flatMap_cons, List.length_append, Nat.add_assoc]

theorem PlacedFrom.head {start : Nat} {command : Command} {commands : List Command}
    (h : PlacedFrom start (command :: commands)) : command.offset = some start := by
  simpa using h [] command commands rfl

theorem PlacedFrom.tail {start : Nat} {command : Command} {commands : List Command}
    (h : PlacedFrom start (command :: commands)) :
    PlacedFrom (start + command.bytes.length) commands := by
  intro before other after he
  rw [h (command :: before) other after (by rw [he, List.cons_append]), List.flatMap_cons,
    List.length_append, Nat.add_assoc]

theorem placedFrom_append {start : Nat} {u v : List Command} (hu : PlacedFrom start u)
    (hv : PlacedFrom (start + (u.flatMap Command.bytes).length) v) : PlacedFrom start (u ++ v) := by
  induction u generalizing start with
  | nil => simpa using hv
  | cons command u ih =>
      refine placedFrom_cons hu.head (ih hu.tail ?_)
      rwa [List.flatMap_cons, List.length_append, ← Nat.add_assoc] at hv

/-- A command that stands before another one has a smaller offset. -/
theorem PlacedFrom.offset_lt {start : Nat} {before after : List Command} {c d : Command}
    {m n : Nat} (h : PlacedFrom start (before ++ c :: after)) (hd : d ∈ before)
    (hm : d.offset = some m) (hn : c.offset = some n) : m < n := by
  obtain ⟨u, v, rfl⟩ := List.append_of_mem hd
  have hd' := h u d (v ++ c :: after) (by simp)
  have hc' := h (u ++ d :: v) c after rfl
  rw [hm] at hd'
  rw [hn] at hc'
  have hpos := d.bytes_length_pos
  simp only [Option.some.injEq, List.flatMap_append, List.flatMap_cons, List.length_append] at hd' hc'
  omega

theorem explicit_ready_add {s : ParseState} {c : Cursor} {command : Command} {o index : Nat}
    (h : command.offset = some o) :
    explicit ((s.ready catalog kind c).add command index).commands.toList =
      explicit s.commands.toList ++ [command] := by
  obtain ⟨added, hadded, hall⟩ := s.ready_commands catalog kind c
  rw [ParseState.add_commands, Array.toList_push, explicit_append, hadded, explicit_append,
    explicit_eq_nil hall, explicit_singleton h, List.append_nil]

/-- What a run reads is written in the bytes it passes, from its cursor to the end or to the place
of its failure, each command at the offset it carries. -/
theorem ParseRun.reads {c : Cursor} {s s' : ParseState} {stop : Option (Nat × ParseError)}
    (h : ParseRun catalog kind c s s' stop) :
    ∃ commands rest, explicit s'.commands.toList = explicit s.commands.toList ++ commands ∧
      PlacedFrom c.position commands ∧ c.rest = commands.flatMap Command.bytes ++ rest ∧
      (stop = none → rest = []) ∧
      ∀ o e, stop = some (o, e) → o = c.position + (commands.flatMap Command.bytes).length := by
  induction h with
  | @done c s hend =>
      refine ⟨[], c.rest, by simp, placedFrom_nil _, by simp, ?_, by simp⟩
      intro _
      simpa [Cursor.atEnd] using hend
  | @failed c s e hend hr =>
      obtain ⟨added, hadded, hall⟩ := s.ready_commands catalog kind c
      refine ⟨[], c.rest, ?_, placedFrom_nil _, by simp, by simp, ?_⟩
      · rw [hadded, explicit_append, explicit_eq_nil hall]
      · intro o e' he
        obtain ⟨rfl, -⟩ := Prod.mk.inj (Option.some.inj he)
        simp
  | @more c after s s' command stop hend hr _ ih =>
      obtain ⟨-, hoff, hp⟩ := readCommand_eq_ok_iff.mp hr
      obtain ⟨commands, rest, hread, hplaced, hbytes, hnone, hsome⟩ := ih
      rw [hp.position] at hplaced hsome
      refine ⟨command :: commands, rest, ?_, placedFrom_cons hoff hplaced, ?_, hnone, ?_⟩
      · rw [hread, explicit_ready_add hoff, List.append_assoc, List.singleton_append]
      · rw [hp.1, hbytes, List.flatMap_cons, List.append_assoc]
      · intro o e he
        rw [hsome o e he, List.flatMap_cons, List.length_append, Nat.add_assoc]

/-- Every command of a run is one the catalog allows, or an added one. -/
theorem ParseRun.commands_conform {c : Cursor} {s s' : ParseState}
    {stop : Option (Nat × ParseError)} (h : ParseRun catalog kind c s s' stop)
    {command : Command} (hmem : command ∈ s'.commands) :
    command ∈ s.commands ∨ Added catalog command ∨
      ∃ enclosing, command.Conforms catalog kind enclosing := by
  have hready : ∀ (s : ParseState) (c : Cursor), command ∈ (s.ready catalog kind c).commands →
      command ∈ s.commands ∨ Added catalog command := by
    intro s c hm
    obtain ⟨added, hadded, hall⟩ := s.ready_commands catalog kind c
    rw [← Array.mem_toList_iff, hadded, List.mem_append] at hm
    rcases hm with hm | hm
    · exact .inl (Array.mem_toList_iff.mp hm)
    · exact .inr (hall command hm)
  induction h with
  | done => exact .inl hmem
  | @failed c s => exact (hready s c hmem).imp_right .inl
  | @more c after s s' read stop hend hr _ ih =>
      obtain ⟨hconf, -, -⟩ := readCommand_eq_ok_iff.mp hr
      rcases ih hmem with hm | hm
      · rw [ParseState.add_commands, Array.mem_push] at hm
        rcases hm with hm | rfl
        · exact (hready s c hm).imp_right .inl
        · exact .inr (.inr ⟨_, hconf⟩)
      · exact .inr hm

/-! ### Offsets -/

/-- The offset of every command read so far lies behind and leads to the command, or to the start of
a behavior right before it. -/
def OffsetsNoted (catalog : Catalog) (c : Cursor) (s : ParseState) : Prop :=
  ∀ index command o, s.commands[index]? = some command → command.offset = some o →
    o < c.position ∧ (s.offsets[o]? = some index ∨
      ∃ entry n, index = entry + 1 ∧ s.offsets[o]? = some entry ∧
        s.commands[entry]? = some (.implicit (catalog.marker .behaviour) [⟨.label, .number n⟩]))

theorem ready_getElem?_of_getElem? {s : ParseState} {c : Cursor} {index : Nat} {command : Command}
    (h : s.commands[index]? = some command) :
    (s.ready catalog kind c).commands[index]? = some command := by
  obtain ⟨added, hadded, -⟩ := s.ready_commands catalog kind c
  rw [← Array.getElem?_toList] at h ⊢
  rw [hadded, List.getElem?_append_left (List.getElem?_eq_some_iff.mp h).1, h]

theorem getElem?_of_ready_getElem? {s : ParseState} {c : Cursor} {index o : Nat}
    {command : Command} (h : (s.ready catalog kind c).commands[index]? = some command)
    (ho : command.offset = some o) : s.commands[index]? = some command := by
  obtain ⟨added, hadded, hall⟩ := s.ready_commands catalog kind c
  rw [← Array.getElem?_toList] at h ⊢
  rw [hadded] at h
  rcases Nat.lt_or_ge index s.commands.toList.length with hlt | hge
  · rwa [List.getElem?_append_left hlt] at h
  · rw [List.getElem?_append_right hge] at h
    have := (hall command (List.mem_of_getElem? h)).offset_eq_none
    rw [ho] at this
    cases this

/-- Noting the offset under the cursor leaves those behind it alone. -/
theorem OffsetsNoted.ready {c : Cursor} {s : ParseState} (h : OffsetsNoted catalog c s) :
    OffsetsNoted catalog c (s.ready catalog kind c) := by
  intro index command o hi ho
  obtain ⟨hlt, hnoted⟩ := h index command o (getElem?_of_ready_getElem? hi ho) ho
  have hsame : (s.ready catalog kind c).offsets[o]? = s.offsets[o]? := by
    rw [ParseState.ready_offsets, Std.TreeMap.getElem?_insert, if_neg]
    rw [compare_eq_iff_eq]
    omega
  refine ⟨hlt, ?_⟩
  rw [hsame]
  rcases hnoted with hnoted | ⟨entry, n, rfl, hnoted, hm⟩
  · exact .inl hnoted
  · exact .inr ⟨entry, n, rfl, hnoted, ready_getElem?_of_getElem? hm⟩

theorem OffsetsNoted.add {c after : Cursor} {s : ParseState} {command : Command}
    (h : OffsetsNoted catalog c s) (ho : command.offset = some c.position)
    (hpos : c.position < after.position) :
    OffsetsNoted catalog after
      ((s.ready catalog kind c).add command (s.entry catalog kind c)) := by
  intro index other o hi hoff
  rw [ParseState.add_commands, Array.getElem?_push] at hi
  rw [ParseState.add_offsets, ParseState.add_commands]
  by_cases hindex : index = (s.ready catalog kind c).commands.size
  · rw [if_pos hindex] at hi
    obtain rfl := Option.some.inj hi
    obtain rfl := Option.some.inj (ho.symm.trans hoff)
    refine ⟨hpos, ?_⟩
    rw [ParseState.ready_offsets, Std.TreeMap.getElem?_insert_self]
    rcases s.ready_size catalog kind c with hsize | ⟨hsize, n, hm⟩
    · exact .inl (by rw [hindex, hsize])
    · refine .inr ⟨_, n, hindex.trans hsize, rfl, ?_⟩
      rw [Array.getElem?_push, if_neg (by omega), hm]
  · rw [if_neg hindex] at hi
    obtain ⟨hlt, hnoted⟩ := h.ready index other o hi hoff
    refine ⟨by omega, ?_⟩
    rcases hnoted with hnoted | ⟨entry, n, rfl, hnoted, hm⟩
    · exact .inl hnoted
    · refine .inr ⟨entry, n, rfl, hnoted, ?_⟩
      have := (Array.getElem?_eq_some_iff.mp hm).1
      rw [Array.getElem?_push, if_neg (by omega), hm]

theorem ParseRun.offsetsNoted {c : Cursor} {s s' : ParseState}
    {stop : Option (Nat × ParseError)} (h : ParseRun catalog kind c s s' stop)
    (hs : OffsetsNoted catalog c s) : ∃ c', OffsetsNoted catalog c' s' := by
  induction h with
  | @done c s => exact ⟨c, hs⟩
  | @failed c s => exact ⟨c, hs.ready⟩
  | @more c after s s' command stop hend hr _ ih =>
      obtain ⟨-, hoff, hp⟩ := readCommand_eq_ok_iff.mp hr
      have hpos : c.position < after.position := by
        rw [hp.position]
        have := command.bytes_length_pos
        omega
      exact ih (hs.add hoff hpos)

/-- Where an offset leads in the commands read so far: to the command at this offset, or to the start
of a behavior before it. That start is the last command if reading stopped at the offset. -/
def OffsetLeads (catalog : Catalog) (commands : Array Command) (stop : Option Nat) (o index : Nat) :
    Prop :=
  (∃ c, commands[index]? = some c ∧ c.offset = some o) ∨
    ∃ n : Int, commands[index]? = some (.implicit (catalog.marker .behaviour) [⟨.label, .number n⟩]) ∧
      ((∃ c, commands[index + 1]? = some c ∧ c.offset = some o) ∨
        index + 1 = commands.size ∧ stop = some o)

/-- Commands read later change nothing about where an offset leads. -/
theorem OffsetLeads.mono {commands later : Array Command} {o index : Nat} {stop : Option Nat}
    (h : OffsetLeads catalog commands none o index)
    (hlater : ∀ (k : Nat) (c : Command), commands[k]? = some c → later[k]? = some c) :
    OffsetLeads catalog later stop o index := by
  rcases h with ⟨c, hc, ho⟩ | ⟨n, hm, ⟨c, hc, ho⟩ | ⟨-, hstop⟩⟩
  · exact .inl ⟨c, hlater index c hc, ho⟩
  · exact .inr ⟨n, hlater index _ hm, .inl ⟨c, hlater _ c hc, ho⟩⟩
  · cases hstop

/-- Every offset noted so far leads to a command read from it. -/
def OffsetsLead (catalog : Catalog) (s : ParseState) : Prop :=
  ∀ o index, s.offsets[o]? = some index → OffsetLeads catalog s.commands none o index

theorem OffsetsLead.add {c : Cursor} {s : ParseState} {command : Command}
    (h : OffsetsLead catalog s) (ho : command.offset = some c.position) :
    OffsetsLead catalog ((s.ready catalog kind c).add command (s.entry catalog kind c)) := by
  intro o index hindex
  rw [ParseState.add_offsets, ParseState.ready_offsets, Std.TreeMap.getElem?_insert] at hindex
  rw [ParseState.add_commands]
  split at hindex
  · -- The offset under the cursor: the command is read behind what was added for it.
    next heq =>
      obtain rfl := compare_eq_iff_eq.mp heq
      obtain rfl := Option.some.inj hindex
      rcases s.ready_size catalog kind c with hsize | ⟨hsize, n, hm⟩
      · refine .inl ⟨command, ?_, ho⟩
        rw [← hsize, Array.getElem?_push_size]
      · refine .inr ⟨n, ?_, .inl ⟨command, ?_, ho⟩⟩
        · rw [Array.getElem?_push, if_neg (by omega), hm]
        · rw [← hsize, Array.getElem?_push_size]
  · refine (h o index hindex).mono ?_
    intro k other hk
    have hready : (s.ready catalog kind c).commands[k]? = some other :=
      ready_getElem?_of_getElem? hk
    have hlt := (Array.getElem?_eq_some_iff.mp hready).1
    rw [Array.getElem?_push, if_neg (by omega), hready]

/-- When the loop stops, an offset that leads into the commands leads to one read from it, or to the
start of the behavior whose first command failed. -/
theorem ParseRun.offsetLeads {c : Cursor} {s s' : ParseState}
    {stop : Option (Nat × ParseError)} (h : ParseRun catalog kind c s s' stop)
    (hs : OffsetsLead catalog s) {o index : Nat} (hindex : s'.offsets[o]? = some index)
    (hlt : index < s'.commands.size) :
    OffsetLeads catalog s'.commands (stop.map Prod.fst) o index := by
  induction h with
  | done => exact hs o index hindex
  | @failed c s e hend hr =>
      rw [ParseState.ready_offsets, Std.TreeMap.getElem?_insert] at hindex
      split at hindex
      · next heq =>
          obtain rfl := compare_eq_iff_eq.mp heq
          obtain rfl := Option.some.inj hindex
          rcases s.ready_size catalog kind c with hsize | ⟨hsize, n, hm⟩
          · exact absurd hlt (by omega)
          · exact .inr ⟨n, hm, .inr ⟨hsize.symm, rfl⟩⟩
      · exact (hs o index hindex).mono fun k other hk => ready_getElem?_of_getElem? hk
  | @more c after s s' command stop hend hr _ ih =>
      obtain ⟨-, hoff, -⟩ := readCommand_eq_ok_iff.mp hr
      exact ih (hs.add hoff) hindex hlt

end

/-! ### Whole scripts -/

theorem parseScript_eq (catalog : Catalog) (scene : Nat) (id : ScriptId) (bytes : List UInt8) :
    ∃ s stop, ParseRun catalog id.kind (.start bytes) (.start id.kind) s stop ∧
      parseScript catalog scene id bytes =
        (s.script id (stop.map Prod.fst),
          stop.toList.map fun f => f.2.diagnostic scene id s.commands.size f.1) := by
  have hrun : ParseRun catalog id.kind (.start bytes) (.start id.kind)
      (ParseState.run catalog id.kind bytes.length (.start bytes) (.start id.kind)).1
      (ParseState.run catalog id.kind bytes.length (.start bytes) (.start id.kind)).2 :=
    parseRun_run (Nat.le_refl bytes.length)
  refine ⟨_, _, hrun, ?_⟩
  unfold parseScript
  split
  · next s h => rw [h]; rfl
  · next s offset e h => rw [h]; rfl

theorem parseScript_id (catalog : Catalog) (scene : Nat) (id : ScriptId) (bytes : List UInt8) :
    (parseScript catalog scene id bytes).1.id = id := by
  obtain ⟨s, stop, -, he⟩ := parseScript_eq catalog scene id bytes
  rw [he]
  rfl

/-- Every command of a parsed script is one the catalog allows, or an added one. -/
theorem parseScript_commands_conform {catalog : Catalog} {scene : Nat} {id : ScriptId}
    {bytes : List UInt8} {command : Command}
    (h : command ∈ (parseScript catalog scene id bytes).1.commands) :
    Added catalog command ∨ ∃ enclosing, command.Conforms catalog id.kind enclosing := by
  obtain ⟨s, stop, hrun, he⟩ := parseScript_eq catalog scene id bytes
  rw [he] at h
  rcases hrun.commands_conform h with hm | hm
  · simp [ParseState.start] at hm
  · exact hm

/-- Offsets of a parsed script lead to commands of the script. -/
theorem lt_size_of_parseScript_indexOf? {catalog : Catalog} {scene : Nat} {id : ScriptId}
    {bytes : List UInt8} {o index : Nat}
    (h : (parseScript catalog scene id bytes).1.indexOf? o = some index) :
    index < (parseScript catalog scene id bytes).1.commands.size := by
  obtain ⟨s, stop, -, he⟩ := parseScript_eq catalog scene id bytes
  rw [he] at h ⊢
  simp only [ParsedScript.indexOf?, ParseState.script, Std.TreeMap.getElem?_filter'] at h
  simpa [ParseState.script] using (Option.filter_eq_some_iff.mp h).2

/-- The offset of a command leads to the command, or to the start of a behavior right before it. -/
theorem parseScript_indexOf? {catalog : Catalog} {scene : Nat} {id : ScriptId}
    {bytes : List UInt8} {index o : Nat} {command : Command}
    (h : (parseScript catalog scene id bytes).1.commands[index]? = some command)
    (ho : command.offset = some o) :
    (parseScript catalog scene id bytes).1.indexOf? o = some index ∨
      ∃ entry n, index = entry + 1 ∧
        (parseScript catalog scene id bytes).1.indexOf? o = some entry ∧
        (parseScript catalog scene id bytes).1.commands[entry]? =
          some (.implicit (catalog.marker .behaviour) [⟨.label, .number n⟩]) := by
  obtain ⟨s, stop, hrun, he⟩ := parseScript_eq catalog scene id bytes
  have hstart : OffsetsNoted catalog (.start bytes) (.start id.kind) := by
    intro index command o hi
    simp [ParseState.start] at hi
  obtain ⟨c', hnoted⟩ := hrun.offsetsNoted hstart
  rw [he] at h ⊢
  have hkeep : ∀ entry, s.offsets[o]? = some entry → entry < s.commands.size →
      (s.script id (stop.map Prod.fst)).indexOf? o = some entry := by
    intro entry hentry hlt
    simp only [ParsedScript.indexOf?, ParseState.script, Std.TreeMap.getElem?_filter', hentry]
    simpa using hlt
  have hlt := (Array.getElem?_eq_some_iff.mp h).1
  obtain ⟨-, hi | ⟨entry, n, rfl, hi, hm⟩⟩ := hnoted index command o h ho
  · exact .inl (hkeep index hi hlt)
  · exact .inr ⟨entry, n, rfl, hkeep entry hi (Array.getElem?_eq_some_iff.mp hm).1, hm⟩

/-- An offset of a parsed script leads to the command read there, or to the start of a behavior
before it, which is the last command where reading failed at the offset. -/
theorem leads_of_indexOf? {catalog : Catalog} {scene : Nat} {id : ScriptId} {bytes : List UInt8}
    {o index : Nat} (h : (parseScript catalog scene id bytes).1.indexOf? o = some index) :
    OffsetLeads catalog (parseScript catalog scene id bytes).1.commands
      (parseScript catalog scene id bytes).1.truncatedAt o index := by
  have hlt := lt_size_of_parseScript_indexOf? h
  obtain ⟨s, stop, hrun, he⟩ := parseScript_eq catalog scene id bytes
  rw [he] at h hlt ⊢
  have hstart : OffsetsLead catalog (.start id.kind) := by
    intro o index hindex
    simp [ParseState.start] at hindex
  have hindex : s.offsets[o]? = some index := by
    simp only [ParsedScript.indexOf?, ParseState.script, Std.TreeMap.getElem?_filter'] at h
    exact (Option.filter_eq_some_iff.mp h).1
  exact hrun.offsetLeads hstart hindex hlt

/-! ### Writing a script back -/

namespace Writer

/-- Write an argument as its slot lays it out. -/
def argument (w : Writer) (a : Argument) : Writer :=
  match a.value with
  | .number n => w.value a.slot.wire n
  | .text s => w.text s
  | .target _ | .unresolved _ => w

/-- Write arguments in order. -/
def arguments (w : Writer) (args : List Argument) : Writer := args.foldl argument w

/-- Write the code of a predicate and its parameter. -/
def condition (w : Writer) (k : Condition) : Writer :=
  (w.put [k.predicate.code]).arguments k.param.toList

/-- Write the code of an operator and its literal. -/
def test (w : Writer) (t : Test) : Writer := (w.put [t.operator.code]).argument t.operand

/-- Write the condition and the comparison of a command. -/
def guard (w : Writer) (c : Command) : Writer :=
  c.test.toList.foldl test (c.condition.toList.foldl condition w)

/-- Write a command: its code, then its arguments and its guard in the order its opcode says. -/
def command (w : Writer) (c : Command) : Writer :=
  if c.opcode.argsFirst then ((w.put [c.opcode.code]).arguments c.args).guard c
  else ((w.put [c.opcode.code]).guard c).arguments c.args

/-- Write commands one behind the other. -/
def commands (w : Writer) (cs : List Command) : Writer := cs.foldl command w

theorem bytes_put (w : Writer) (bytes : List UInt8) : (w.put bytes).bytes = w.bytes ++ bytes := rfl

theorem bytes_foldl {α : Type} {write : Writer → α → Writer} {bytesOf : α → List UInt8}
    (h : ∀ w a, (write w a).bytes = w.bytes ++ bytesOf a) (w : Writer) (as : List α) :
    (as.foldl write w).bytes = w.bytes ++ as.flatMap bytesOf := by
  induction as generalizing w with
  | nil => simp
  | cons a as ih => rw [List.foldl_cons, ih, h, List.flatMap_cons, List.append_assoc]

theorem bytes_argument (w : Writer) (a : Argument) :
    (w.argument a).bytes = w.bytes ++ a.bytes := by
  unfold argument Argument.bytes
  cases a.value <;> simp [value, text, bytes_put]

theorem bytes_arguments (w : Writer) (args : List Argument) :
    (w.arguments args).bytes = w.bytes ++ args.flatMap Argument.bytes :=
  bytes_foldl bytes_argument w args

theorem bytes_condition (w : Writer) (k : Condition) :
    (w.condition k).bytes = w.bytes ++ k.bytes := by
  rw [condition, bytes_arguments, bytes_put, Condition.bytes, List.append_assoc,
    List.singleton_append]

theorem bytes_test (w : Writer) (t : Test) : (w.test t).bytes = w.bytes ++ t.bytes := by
  rw [test, bytes_argument, bytes_put, Test.bytes, List.append_assoc, List.singleton_append]

theorem bytes_guard (w : Writer) (c : Command) :
    (w.guard c).bytes = w.bytes ++ c.guardBytes := by
  rw [guard, bytes_foldl bytes_test, bytes_foldl bytes_condition, Command.guardBytes,
    List.append_assoc]

theorem bytes_command (w : Writer) (c : Command) : (w.command c).bytes = w.bytes ++ c.bytes := by
  unfold command Command.bytes Command.argsBytes
  split <;> simp [bytes_guard, bytes_arguments, bytes_put]

theorem bytes_commands (w : Writer) (cs : List Command) :
    (w.commands cs).bytes = w.bytes ++ cs.flatMap Command.bytes :=
  bytes_foldl bytes_command w cs

end Writer

/-- **Parsing loses and invents no byte.** Writing the commands that were read from the bytes of a
script one behind the other gives the bytes up to the place where reading failed, or all of them,
and each of these commands carries the offset at which it is written. -/
theorem writtenBack_parseScript (catalog : Catalog) (scene : Nat) (id : ScriptId)
    (bytes : List UInt8) :
    let script := (parseScript catalog scene id bytes).1
    let read := explicit script.commands.toList
    let stop := script.truncatedAt.getD bytes.length
    stop ≤ bytes.length ∧ (Writer.commands {} read).bytes = bytes.take stop ∧
      ∀ before command after, read = before ++ command :: after →
        command.offset = some (Writer.commands {} before).position := by
  obtain ⟨s, stop, hrun, he⟩ := parseScript_eq catalog scene id bytes
  obtain ⟨commands, rest, hread, hplaced, hbytes, hnone, hsome⟩ := hrun.reads
  have hread : explicit s.commands.toList = commands := by simpa [ParseState.start, explicit] using hread
  have hbytes : bytes = commands.flatMap Command.bytes ++ rest := hbytes
  have hstop : (stop.map Prod.fst).getD bytes.length = (commands.flatMap Command.bytes).length := by
    cases stop with
    | none => simp [hbytes, hnone rfl]
    | some f => simpa [Cursor.start] using hsome f.1 f.2 rfl
  rw [he]
  simp only [ParseState.script, hread, hstop, Writer.bytes_commands, List.nil_append]
  refine ⟨?_, ?_, ?_⟩
  · rw [hbytes, List.length_append]
    omega
  · rw [hbytes, List.take_left]
  · intro before command after hsplit
    rw [hplaced before command after hsplit, Writer.position, Writer.bytes_commands]
    simp [Cursor.start]

end SceneScript
