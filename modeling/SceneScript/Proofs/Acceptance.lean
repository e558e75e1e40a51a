import SceneScript.Catalog.Standard
import SceneScript.Proofs.Parsing

/-! # Well-formed scripts are accepted

`Command.WellFormed` says what a command of a catalog looks like, without a word about reading:

* opcode, predicate and operator are the entries of the tables at their own codes;
* the arguments follow the signature of the opcode, and a direction mode is followed by what it calls
  for (`ModeCalls`);
* condition and comparison are there exactly when the opcode has them, laid out by the predicate;
* every value is one its slot can hold.

`parseScript_accepts` says that well-formed commands written one behind the other are read back, each
at the place where it was written. Blocks and behaviors that the parser finds on the way add commands
without bytes and never disturb the reading. -/

namespace SceneScript

/-! ### Well-formed commands -/

/-- The slots beyond the signature that an operation calls for, given the number in the last argument
of the signature: behind a direction mode an actor, for the modes that follow one, or a byte, for
mode nine; otherwise nothing. -/
inductive ModeCalls (o : Operation) (mode : Option Int) : List Slot → Prop
  | actor {n : Int} : o = .setDirMode ∨ o = .setDirModeObj → mode = some n →
      n = 2 ∨ n = 4 ∨ n = 6 ∨ n = 10 ∨ n = 11 → ModeCalls o mode [.actor]
  | byte : o = .setDirMode ∨ o = .setDirModeObj → mode = some 9 → ModeCalls o mode [.u8]
  | plain : (o = .setDirMode ∨ o = .setDirModeObj →
      ∀ n, mode = some n → n ≠ 2 ∧ n ≠ 4 ∧ n ≠ 6 ∧ n ≠ 9 ∧ n ≠ 10 ∧ n ≠ 11) → ModeCalls o mode []

/-- A command laid out as a catalog prescribes for a kind of script. Its arguments are those of the
signature and what their mode calls for. -/
structure Command.WellFormed (catalog : Catalog) (kind : ScriptKind) (c : Command) : Prop where
  opcode : catalog.opcode? kind c.opcode.code = some c.opcode
  args : ∃ signed extra, c.args = signed ++ extra ∧ signed.map Argument.slot = c.opcode.slots ∧
    ModeCalls c.opcode.operation (signed.getLast?.bind fun a => a.value.number?)
      (extra.map Argument.slot)
  fits : ∀ a ∈ c.args, a.Fits
  hasCondition : c.condition.isSome = c.opcode.hasCondition
  condition : ∀ k ∈ c.condition, k.Conforms catalog
  hasTest : c.test.isSome = c.opcode.hasOperator
  test : ∀ t ∈ c.test, ∀ k ∈ c.condition, t.Conforms catalog k.predicate

theorem ModeCalls.extraSlot? {o : Operation} {signed : List Argument} {slots : List Slot}
    (h : ModeCalls o (signed.getLast?.bind fun a => a.value.number?) slots) :
    (SceneScript.extraSlot? o signed).toList = slots := by
  have hread : ∀ n, o = .setDirMode ∨ o = .setDirModeObj →
      (signed.getLast?.bind fun a => a.value.number?) = some n →
        SceneScript.extraSlot? o signed = directionSlot? n := by
    rintro n (rfl | rfl) hn <;> simp only [SceneScript.extraSlot?, hn, Option.bind_some]
  cases h with
  | actor ho hn hmode =>
      rw [hread _ ho hn, directionSlot?, if_pos (by simpa using hmode)]
      rfl
  | byte ho hn =>
      rw [hread _ ho hn]
      rfl
  | plain hplain =>
      by_cases ho : o = .setDirMode ∨ o = .setDirModeObj
      · cases hn : signed.getLast?.bind fun a => a.value.number? with
        | none => rcases ho with rfl | rfl <;> simp [SceneScript.extraSlot?, hn]
        | some n =>
            obtain ⟨h2, h4, h6, h9, h10, h11⟩ := hplain ho n hn
            rw [hread n ho hn, directionSlot?, if_neg (by simp [h2, h4, h6, h10, h11]), if_neg h9]
            rfl
      · have hnone : SceneScript.extraSlot? o signed = none := by
          unfold SceneScript.extraSlot?
          split
          · exact absurd (.inl rfl) ho
          · exact absurd (.inr rfl) ho
          · rfl
        rw [hnone]
        rfl

/-- A well-formed command is read wherever it stands, unless it compares the value of a switch. -/
theorem Command.WellFormed.conforms {catalog : Catalog} {kind : ScriptKind} {c : Command}
    (h : c.WellFormed catalog kind)
    (hplain : c.opcode.hasOperator = true → c.opcode.hasCondition = true)
    (enclosing : Option Predicate) : c.Conforms catalog kind enclosing := by
  obtain ⟨signed, extra, hargs, hsigned, hextra⟩ := h.args
  refine ⟨h.opcode, ⟨?_, h.fits⟩, ⟨h.hasCondition, h.condition, h.hasTest, ?_⟩⟩
  · have hlength : c.opcode.slots.length = signed.length := by rw [← hsigned, List.length_map]
    rw [hargs, List.map_append, hlength, List.take_left, hextra.extraSlot?, hsigned]
  · intro t ht
    have hoperator : c.opcode.hasOperator = true := by rw [← h.hasTest, Option.mem_def.mp ht]; rfl
    have hsome : c.condition.isSome = true := h.hasCondition.trans (hplain hoperator)
    obtain ⟨k, hk⟩ := Option.isSome_iff_exists.mp hsome
    exact ⟨k.predicate, by rw [hk]; rfl, h.test t ht k hk⟩

/-! ### Commands in their places -/

/-- Commands with the offsets at which they are written from an offset on. -/
def placeFrom : Nat → List Command → List Command
  | _, [] => []
  | start, c :: rest => { c with offset := some start } :: placeFrom (start + c.bytes.length) rest

theorem length_placeFrom (start : Nat) (commands : List Command) :
    (placeFrom start commands).length = commands.length := by
  induction commands generalizing start with
  | nil => rfl
  | cons c rest ih => rw [placeFrom, List.length_cons, ih, List.length_cons]

theorem bytes_placeFrom (start : Nat) (commands : List Command) :
    (placeFrom start commands).flatMap Command.bytes = commands.flatMap Command.bytes := by
  induction commands generalizing start with
  | nil => rfl
  | cons c rest ih =>
      rw [placeFrom, List.flatMap_cons, ih, List.flatMap_cons]
      rfl

theorem placed_placeFrom (start : Nat) (commands : List Command) :
    PlacedFrom start (placeFrom start commands) := by
  induction commands generalizing start with
  | nil => exact placedFrom_nil start
  | cons c rest ih => exact placedFrom_cons rfl (ih _)

theorem getElem?_placeFrom (start : Nat) (before : List Command) (c : Command)
    (after : List Command) :
    (placeFrom start (before ++ c :: after))[before.length]? =
      some { c with offset := some (start + (before.flatMap Command.bytes).length) } := by
  induction before generalizing start with
  | nil => rfl
  | cons first before ih =>
      rw [List.cons_append, placeFrom, List.length_cons, List.getElem?_cons_succ, ih,
        List.flatMap_cons, List.length_append, Nat.add_assoc]

theorem conforms_placeFrom {catalog : Catalog} {kind : ScriptKind} {enclosing : Option Predicate}
    {commands : List Command} (h : ∀ c ∈ commands, c.Conforms catalog kind enclosing) (start : Nat) :
    ∀ c ∈ placeFrom start commands, c.Conforms catalog kind enclosing := by
  induction commands generalizing start with
  | nil => simp [placeFrom]
  | cons c rest ih =>
      rw [List.forall_mem_cons] at h
      rw [placeFrom, List.forall_mem_cons]
      exact ⟨⟨h.1.opcode, h.1.args, h.1.guard⟩, ih h.2 _⟩

/-! ### Reading them back -/

/-- Commands that are read wherever they stand are read one behind the other, whatever is open. -/
theorem ParseRun.accepts {catalog : Catalog} {kind : ScriptKind} {commands : List Command}
    {c : Cursor} {s s' : ParseState} {stop : Option (Nat × ParseError)}
    (h : ParseRun catalog kind c s s' stop)
    (hconf : ∀ command ∈ commands, ∀ enclosing, command.Conforms catalog kind enclosing)
    (hplaced : PlacedFrom c.position commands)
    (hbytes : c.rest = commands.flatMap Command.bytes) :
    stop = none ∧ explicit s'.commands.toList = explicit s.commands.toList ++ commands := by
  induction commands generalizing c s with
  | nil =>
      have hend : c.atEnd = true := by simp [Cursor.atEnd, hbytes]
      obtain ⟨rfl, rfl⟩ := h.eq_of_atEnd hend
      exact ⟨rfl, (List.append_nil _).symm⟩
  | cons command commands ih =>
      rw [List.forall_mem_cons] at hconf
      obtain ⟨after, hrest, hposition, hrun⟩ := h.next_of_conforms (hconf.1 _) hplaced.head hbytes
      have hplaced' := hplaced.tail
      rw [← hposition] at hplaced'
      obtain ⟨hstop, hread⟩ := ih hrun hconf.2 hplaced' hrest
      refine ⟨hstop, ?_⟩
      rw [hread, explicit_ready_add hplaced.head, List.append_assoc, List.singleton_append]

/-- **Well-formed scripts are accepted.** Well-formed commands that do not compare the value of a
switch, written one behind the other, are parsed without a failure, and the commands read from bytes
are the ones that were written, each at the offset where it was written. -/
theorem parseScript_accepts {catalog : Catalog} {id : ScriptId} {commands : List Command}
    (hplain : ∀ c ∈ commands, c.opcode.hasOperator = true → c.opcode.hasCondition = true)
    (hformed : ∀ c ∈ commands, c.WellFormed catalog id.kind) (scene : Nat) :
    let bytes := (Writer.commands {} commands).bytes
    let read := explicit (parseScript catalog scene id bytes).1.commands.toList
    (parseScript catalog scene id bytes).2 = [] ∧
      (parseScript catalog scene id bytes).1.truncatedAt = none ∧
      read.length = commands.length ∧
      ∀ before c after, commands = before ++ c :: after →
        read[before.length]? = some { c with offset := some (Writer.commands {} before).position } := by
  intro bytes read
  obtain ⟨s, stop, hrun, he⟩ := parseScript_eq catalog scene id bytes
  have hconf : ∀ c ∈ placeFrom 0 commands, ∀ enclosing, c.Conforms catalog id.kind enclosing :=
    fun c hc enclosing => conforms_placeFrom
      (fun c hc => (hformed c hc).conforms (hplain c hc) enclosing) 0 c hc
  have hbytes : (Cursor.start bytes).rest = (placeFrom 0 commands).flatMap Command.bytes := by
    rw [bytes_placeFrom]
    exact Writer.bytes_commands {} commands
  obtain ⟨rfl, hread⟩ := hrun.accepts hconf (placed_placeFrom 0 commands) hbytes
  have hread : read = placeFrom 0 commands := by
    simp only [read, he, ParseState.script, hread]
    rfl
  rw [hread, he]
  refine ⟨rfl, rfl, length_placeFrom 0 commands, ?_⟩
  rintro before c after rfl
  rw [getElem?_placeFrom, Nat.zero_add, Writer.position, Writer.bytes_commands]
  rfl

/-- A direction mode that follows an actor, a text with a character of its own and a test whose jump
ends the test's block right behind it are read back. -/
theorem parseScript_accepts_modes :
    let mode : Command :=
      { opcode := .engine 0x1C "SET_DIRMODE_OBJ" .setDirModeObj [.actor, .u8]
        args := [⟨.actor, .number 7⟩, ⟨.u8, .number 10⟩, ⟨.actor, .number 0⟩] }
    let video : Command :=
      { opcode := (Opcode.game 0x40 "PLAY_VIDEO" [.text]).withCallState
        args := [⟨.text, .text "é"⟩] }
    let test : Command :=
      { opcode := (Opcode.engine 0x0C "IF" .ifThen [.jump]).conditional
        args := [⟨.jump, .number 13⟩]
        condition :=
          some ⟨⟨0x02, "DISTANCE", .u16, some .actor, .host⟩, some ⟨.actor, .number 255⟩⟩
        test := some ⟨⟨0x02, "<", .lt⟩, ⟨.u16, .number 65535⟩⟩ }
    let commands := [mode, video, test, mode]
    let parsed := parseScript .standard 0 (.life 0) (Writer.commands {} commands).bytes
    (∀ c ∈ commands, c.opcode.hasOperator = true → c.opcode.hasCondition = true) ∧
      (∀ c ∈ commands, c.WellFormed .standard .life) ∧
      parsed.2 = [] ∧
      (explicit parsed.1.commands.toList)[3]? = some { mode with offset := some 15 } := by
  intro mode video test commands parsed
  have hmode : mode.WellFormed .standard .life := by
    refine ⟨by decide +kernel, ⟨[⟨.actor, .number 7⟩, ⟨.u8, .number 10⟩], [⟨.actor, .number 0⟩],
      rfl, rfl, ?_⟩, ?_, rfl, by simp [mode], rfl, by simp [mode]⟩
    · exact .actor (.inr rfl) rfl (by decide)
    · simp only [mode, List.forall_mem_cons]
      exact ⟨⟨by decide, by decide⟩, ⟨by decide, by decide⟩, ⟨by decide, by decide⟩, by simp⟩
  have hvideo : video.WellFormed .standard .life := by
    refine ⟨by decide +kernel, ⟨[⟨.text, .text "é"⟩], [], rfl, rfl, ?_⟩, ?_, rfl, by simp [video],
      rfl, by simp [video]⟩
    · exact .plain (by simp [video, Opcode.withCallState, Opcode.game])
    · simp only [video, List.forall_mem_cons]
      exact ⟨⟨rfl, by simp [Latin]⟩, by simp⟩
  have htest : test.WellFormed .standard .life := by
    refine ⟨by decide +kernel, ⟨[⟨.jump, .number 13⟩], [], rfl, rfl, ?_⟩, ?_, rfl, ?_, rfl, ?_⟩
    · exact .plain (by simp [test, Opcode.conditional, Opcode.engine])
    · simp only [test, List.forall_mem_cons]
      exact ⟨⟨by decide, by decide⟩, by simp⟩
    · rintro k ⟨⟩
      exact ⟨by decide +kernel, rfl, by rintro a ⟨⟩; exact ⟨by decide, by decide⟩⟩
    · rintro t ⟨⟩ k ⟨⟩
      exact ⟨by decide +kernel, rfl, by decide, by decide⟩
  have hplain : ∀ c ∈ commands, c.opcode.hasOperator = true → c.opcode.hasCondition = true := by
    decide
  have hformed : ∀ c ∈ commands, c.WellFormed .standard .life := by
    simp only [commands, List.forall_mem_cons]
    exact ⟨hmode, hvideo, htest, hmode, by simp⟩
  obtain ⟨hnone, -, -, hplaces⟩ := @parseScript_accepts .standard (.life 0) commands hplain hformed 0
  have hposition : (Writer.commands {} [mode, video, test]).position = 15 := by decide +kernel
  have hplace := hplaces [mode, video, test] mode [] rfl
  rw [hposition, show [mode, video, test].length = 3 from rfl] at hplace
  refine ⟨hplain, hformed, hnone, ?_⟩
  rw [← hplace]

end SceneScript
