import SceneScript.Catalog.Standard
import SceneScript.Proofs.OffsetMap

/-! # Parsing the beginning of a script

Bytes that follow change nothing about what was read before them.

* `Cursor.Longer more c d`: the cursor `d` stands where `c` stands and has `more` bytes behind it.
* `Reader.Steady x`: with more bytes behind it the reader `x` reads what it read, and fails as it
  failed unless it ran out of bytes. Readers are steady because their parts are.
* `ParseState.Within s t`: everything in the state `s` is in `t`. The loop only adds, since a new
  offset lies behind the cursor's and a new index behind those in use (`ParseState.Noted`).
* `ParseRun.longer`: the loop over the beginning and the loop over the whole go in step until the
  first one stops.
* `parseScript_append`: what this means for parsed scripts. -/

namespace SceneScript

/-! ### More bytes -/

/-- The same place with more bytes behind it. -/
structure Cursor.Longer (more : List UInt8) (c d : Cursor) : Prop where
  position : d.position = c.position
  rest : d.rest = c.rest ++ more

namespace Cursor

variable {more : List UInt8} {c d : Cursor}

/-- What passes at a cursor passes with more bytes behind it. -/
theorem Longer.passes (h : c.Longer more d) {written : List UInt8} {after : Cursor}
    (hp : c.Passes written after) :
    ∃ after', d.Passes written after' ∧ after.Longer more after' := by
  have hp' : d.Passes written (d.advance written.length) := by
    refine passes_iff.mpr ⟨?_, rfl⟩
    rw [h.rest, hp.1, List.append_assoc]
    exact List.prefix_append _ _
  refine ⟨_, hp', ?_, ?_⟩
  · rw [hp.position, position_advance, h.position]
  · rw [rest_advance, h.rest, hp.1, List.append_assoc, List.drop_left]

theorem Longer.atEnd (h : c.Longer more d) (hend : c.atEnd = false) : d.atEnd = false := by
  rw [Cursor.atEnd] at hend ⊢
  rw [h.rest]
  cases hrest : c.rest with
  | nil => simp [hrest] at hend
  | cons b rest => rfl

theorem Longer.peek? (h : c.Longer more d) (hend : c.atEnd = false) : d.peek? = c.peek? := by
  rw [Cursor.atEnd] at hend
  rw [Cursor.peek?, Cursor.peek?, h.rest]
  cases hrest : c.rest with
  | nil => simp [hrest] at hend
  | cons b rest => rfl

end Cursor

/-! ### Steady readers -/

/-- Whether a failure is for want of bytes. -/
def ParseError.isOverrun : ParseError → Bool
  | .overrun _ => true
  | _ => false

/-- A reader that more bytes do not mislead. -/
structure Reader.Steady {α : Type} (x : Reader α) : Prop where
  reads : ∀ {more c d a after}, Cursor.Longer more c d → x.run c = .ok (a, after) →
    ∃ after', x.run d = .ok (a, after') ∧ after.Longer more after'
  fails : ∀ {more c d e}, Cursor.Longer more c d → x.run c = .error e → e.isOverrun = false →
    x.run d = .error e

namespace Reader

variable {α β : Type}

theorem Steady.pure (a : α) : Steady (Pure.pure a : Reader α) where
  reads {_ c d b after} h hr := by
    obtain ⟨rfl, rfl⟩ := pure_eq_ok_iff.mp hr
    exact ⟨d, pure_eq_ok_iff.mpr ⟨rfl, rfl⟩, h⟩
  fails _ hr := by cases hr

theorem Steady.throw (e : ParseError) : Steady (MonadExcept.throw e : Reader α) where
  reads _ hr := (throw_ne_ok hr).elim
  fails _ hr _ := hr

/-- One reader after the other fails where the first or the second fails. -/
theorem bind_eq_error_iff {x : Reader α} {f : α → Reader β} {c : Cursor} {e : ParseError} :
    (x >>= f).run c = .error e ↔
      x.run c = .error e ∨ ∃ a mid, x.run c = .ok (a, mid) ∧ (f a).run mid = .error e := by
  rw [StateT.run_bind]
  cases hx : x.run c with
  | error e' => simp [bind, Except.bind]
  | ok p =>
      simp only [bind, Except.bind, reduceCtorEq, false_or, Except.ok.injEq]
      constructor
      · exact fun h => ⟨p.1, p.2, rfl, h⟩
      · rintro ⟨a, mid, rfl, h⟩
        exact h

theorem Steady.bind {x : Reader α} {f : α → Reader β} (hx : x.Steady) (hf : ∀ a, (f a).Steady) :
    (x >>= f).Steady where
  reads {_ c d b after} h hr := by
    obtain ⟨a, mid, ha, hb⟩ := bind_eq_ok_iff.mp hr
    obtain ⟨mid', ha', hmid⟩ := hx.reads h ha
    obtain ⟨after', hb', hafter⟩ := (hf a).reads hmid hb
    exact ⟨after', bind_eq_ok_iff.mpr ⟨a, mid', ha', hb'⟩, hafter⟩
  fails {_ c d e} h hr he := by
    rcases bind_eq_error_iff.mp hr with hr | ⟨a, mid, ha, hb⟩
    · exact bind_eq_error_iff.mpr (.inl (hx.fails h hr he))
    · obtain ⟨mid', ha', hmid⟩ := hx.reads h ha
      exact bind_eq_error_iff.mpr (.inr ⟨a, mid', ha', (hf a).fails hmid hb he⟩)

/-- A reader may ask where it stands, though not what lies ahead. -/
theorem Steady.get {f : Cursor → Reader α} (hf : ∀ c, (f c).Steady)
    (hplace : ∀ c d : Cursor, d.position = c.position → f d = f c) :
    Steady (MonadState.get >>= f) where
  reads {_ c d a after} h hr := by
    have hr : (f c).run c = .ok (a, after) := hr
    rw [← hplace c d h.position] at hr
    exact (hf d).reads h hr
  fails {_ c d e} h hr he := by
    have hr : (f c).run c = .error e := hr
    rw [← hplace c d h.position] at hr
    exact (hf d).fails h hr he

end Reader

theorem readByte_steady : readByte.Steady where
  reads h hr := by
    obtain ⟨after', hp, hafter⟩ := h.passes (readByte_eq_ok_iff.mp hr)
    exact ⟨after', readByte_eq_ok_iff.mpr hp, hafter⟩
  fails {_ c d e} _ hr he := by
    have hr : c.byte.mapError .overrun = .error e := hr
    cases hb : c.byte with
    | ok p => rw [hb] at hr; cases hr
    | error o => rw [hb] at hr; cases hr; cases he

theorem readArgument_steady (slot : Slot) : (readArgument slot).Steady where
  reads h hr := by
    obtain ⟨hslot, hfits, hp⟩ := readArgument_eq_ok_iff.mp hr
    obtain ⟨after', hp', hafter⟩ := h.passes hp
    exact ⟨after', readArgument_eq_ok_iff.mpr ⟨hslot, hfits, hp'⟩, hafter⟩
  fails {_ c d e} _ hr he := by
    simp only [readArgument, StateT.run] at hr
    cases hb : c.read slot.wire with
    | ok p => rw [hb] at hr; cases hr
    | error o => rw [hb] at hr; cases hr; cases he

theorem readSlots_steady (slots : List Slot) : (readSlots slots).Steady := by
  induction slots with
  | nil => exact .pure []
  | cons slot slots ih =>
      exact .bind (readArgument_steady slot) fun a => .bind ih fun args => .pure (a :: args)

theorem readArguments_steady (opcode : Opcode) : (readArguments opcode).Steady := by
  refine .bind (readSlots_steady opcode.slots) fun args => ?_
  split
  · exact .pure args
  · next slot _ => exact .bind (readArgument_steady slot) fun extra => .pure (args ++ [extra])

theorem readCondition_steady (catalog : Catalog) : (readCondition catalog).Steady := by
  refine .get (fun c => .bind readByte_steady fun code => ?_) fun c d h => by simp only [h]
  split
  · exact .throw _
  · next predicate _ =>
      split
      · exact .pure _
      · next slot _ => exact .bind (readArgument_steady slot) fun param => .pure _

theorem readTest_steady (catalog : Catalog) (predicate : Predicate) :
    (readTest catalog predicate).Steady := by
  refine .get (fun c => .bind readByte_steady fun code => ?_) fun c d h => by simp only [h]
  split
  · exact .throw _
  · exact .bind (readArgument_steady predicate.operand) fun operand => .pure _

theorem readGuard_steady (catalog : Catalog) (opcode : Opcode) (enclosing : Option Predicate)
    (start : Nat) : (readGuard catalog opcode enclosing start).Steady := by
  rw [readGuard_eq]
  refine .bind ?_ fun condition => ?_
  · unfold readOptionalCondition
    split
    · exact .bind (readCondition_steady catalog) fun k => .pure (some k)
    · exact .pure none
  · unfold readOptionalTest
    split
    · split
      · exact .throw _
      · next predicate _ => exact .bind (readTest_steady catalog predicate) fun test => .pure _
    · exact .pure _

/-- **Commands are read steadily**: with more bytes behind it a command is read as before, and one
that no table has, or a label outside a switch, fails as before. -/
theorem readCommand_steady (catalog : Catalog) (kind : ScriptKind) (enclosing : Option Predicate)
    (start : Nat) : (readCommand catalog kind enclosing start).Steady := by
  refine .bind readByte_steady fun code => ?_
  split
  · exact .throw _
  · next opcode _ =>
      split
      · exact .bind (readArguments_steady opcode) fun args =>
          .bind (readGuard_steady catalog opcode enclosing start) fun guard => .pure _
      · exact .bind (readGuard_steady catalog opcode enclosing start) fun guard =>
          .bind (readArguments_steady opcode) fun args => .pure _

/-! ### Maps that grow -/

namespace IndexMap

variable {β : Type}

/-- Every entry of the one map is in the other. -/
def Within (m m' : IndexMap β) : Prop := ∀ (k : Nat) (v : β), m[k]? = some v → m'[k]? = some v

/-- All keys lie below a bound. -/
def Below (m : IndexMap β) (bound : Nat) : Prop := ∀ (k : Nat) (v : β), m[k]? = some v → k < bound

theorem Within.refl (m : IndexMap β) : m.Within m := fun _ _ h => h

theorem Within.trans {m m' m'' : IndexMap β} (h : m.Within m') (h' : m'.Within m'') :
    m.Within m'' :=
  fun k v hk => h' k v (h k v hk)

/-- A new key at or above the bound replaces nothing. -/
theorem Below.within_insert {m : IndexMap β} {bound k : Nat} (h : m.Below bound) (hk : bound ≤ k)
    (v : β) : m.Within (m.insert k v) := by
  intro j w hj
  have := h j w hj
  rw [Std.TreeMap.getElem?_insert, if_neg, hj]
  rw [compare_eq_iff_eq]
  omega

theorem Below.mono {m : IndexMap β} {bound bound' : Nat} (h : m.Below bound)
    (hle : bound ≤ bound') : m.Below bound' :=
  fun k v hk => Nat.lt_of_lt_of_le (h k v hk) hle

theorem Below.insert {m : IndexMap β} {bound k : Nat} (h : m.Below bound) (hk : k < bound)
    (v : β) : Below (m.insert k v) bound := by
  intro j w hj
  rw [Std.TreeMap.getElem?_insert] at hj
  split at hj
  · next he =>
      obtain rfl := compare_eq_iff_eq.mp he
      exact hk
  · exact h j w hj

end IndexMap

/-! ### States that grow -/

namespace ParseState

/-- Everything in the one state is in the other. -/
structure Within (s t : ParseState) : Prop where
  commands : s.commands.toList <+: t.commands.toList
  offsets : s.offsets.Within t.offsets
  behaviors : s.behaviors.Within t.behaviors
  tracks : s.tracks.Within t.tracks

theorem Within.refl (s : ParseState) : s.Within s :=
  ⟨List.prefix_rfl, .refl _, .refl _, .refl _⟩

theorem Within.trans {s t u : ParseState} (h : s.Within t) (h' : t.Within u) : s.Within u :=
  ⟨h.commands.trans h'.commands, h.offsets.trans h'.offsets, h.behaviors.trans h'.behaviors,
    h.tracks.trans h'.tracks⟩

/-- What is noted when the loop comes to a position: offsets behind it, and behaviors and tracks among
the commands that are there. -/
structure Noted (position : Nat) (s : ParseState) : Prop where
  offsets : s.offsets.Below position
  behaviors : s.behaviors.Below s.commands.size
  tracks : s.tracks.Below s.commands.size

variable {catalog : Catalog} {kind : ScriptKind}

theorem closeBlocks_behaviors (s : ParseState) (c : Cursor) :
    (s.closeBlocks catalog kind c).behaviors = s.behaviors := by
  unfold closeBlocks
  split <;> rfl

theorem ready_tracks (s : ParseState) (c : Cursor) :
    (s.ready catalog kind c).tracks = s.tracks := by
  unfold ready startBehavior closeBlocks
  split <;> split <;> rfl

/-- A behavior that starts is noted at the index of its command. -/
theorem ready_behaviors (s : ParseState) (catalog : Catalog) (kind : ScriptKind) (c : Cursor) :
    (s.ready catalog kind c).behaviors = s.behaviors ∨
      ∃ n, (s.ready catalog kind c).behaviors = s.behaviors.insert (s.entry catalog kind c) n ∧
        s.entry catalog kind c < (s.ready catalog kind c).commands.size := by
  unfold ready startBehavior
  split
  · refine .inr ⟨_, congrArg (fun m => Std.TreeMap.insert m _ _) (s.closeBlocks_behaviors c), ?_⟩
    simp [enter, entry]
  · exact .inl (s.closeBlocks_behaviors c)

theorem add_behaviors (s : ParseState) (command : Command) (index : Nat) :
    (s.add command index).behaviors = s.behaviors := by
  unfold add track
  dsimp only
  repeat' split
  all_goals rfl

theorem add_tracks (s : ParseState) (command : Command) (index : Nat) :
    (s.add command index).tracks = s.tracks ∨
      ∃ n, (s.add command index).tracks = s.tracks.insert index n := by
  unfold add track
  dsimp only
  repeat' split
  all_goals grind

theorem Noted.ready {c : Cursor} {s : ParseState} (h : s.Noted c.position) :
    s.Within (s.ready catalog kind c) where
  commands := by
    obtain ⟨added, hadded, -⟩ := s.ready_commands catalog kind c
    exact ⟨added, hadded.symm⟩
  offsets := by
    rw [ready_offsets]
    exact h.offsets.within_insert (Nat.le_refl _) _
  behaviors := by
    rcases s.ready_behaviors catalog kind c with hb | ⟨n, hb, -⟩
    · rw [hb]
      exact .refl _
    · rw [hb]
      exact h.behaviors.within_insert (s.size_le_entry catalog kind c) n
  tracks := by
    rw [ready_tracks]
    exact .refl _

theorem Noted.within_add {c : Cursor} {s : ParseState} (h : s.Noted c.position)
    (command : Command) :
    (s.ready catalog kind c).Within
      ((s.ready catalog kind c).add command (s.entry catalog kind c)) where
  commands := by
    rw [add_commands, Array.toList_push]
    exact List.prefix_append _ _
  offsets := by
    rw [add_offsets]
    exact .refl _
  behaviors := by
    rw [add_behaviors]
    exact .refl _
  tracks := by
    rcases (s.ready catalog kind c).add_tracks command (s.entry catalog kind c) with ht | ⟨n, ht⟩
    · rw [ht]
      exact .refl _
    · rw [ht, ready_tracks]
      exact h.tracks.within_insert (s.size_le_entry catalog kind c) n

/-- Reading a command keeps what is noted in bounds. -/
theorem Noted.add {c : Cursor} {s : ParseState} (h : s.Noted c.position) {position : Nat}
    (hpos : c.position < position) (command : Command) :
    ((s.ready catalog kind c).add command (s.entry catalog kind c)).Noted position := by
  have hle := s.size_le_entry catalog kind c
  have hle' := s.entry_le_size_ready catalog kind c
  have hsize : ((s.ready catalog kind c).add command (s.entry catalog kind c)).commands.size =
      (s.ready catalog kind c).commands.size + 1 := by
    rw [add_commands, Array.size_push]
  refine ⟨?_, ?_, ?_⟩
  · rw [add_offsets, ready_offsets]
    exact (h.offsets.mono (Nat.le_of_lt hpos)).insert hpos _
  · rw [add_behaviors, hsize]
    have hold : s.behaviors.Below ((s.ready catalog kind c).commands.size + 1) :=
      h.behaviors.mono (by omega)
    rcases s.ready_behaviors catalog kind c with hb | ⟨n, hb, -⟩
    · rwa [hb]
    · rw [hb]
      exact hold.insert (by omega) n
  · rw [hsize]
    have hold : (s.ready catalog kind c).tracks.Below ((s.ready catalog kind c).commands.size + 1) := by
      rw [ready_tracks]
      exact h.tracks.mono (by omega)
    rcases (s.ready catalog kind c).add_tracks command (s.entry catalog kind c) with ht | ⟨n, ht⟩
    · rwa [ht]
    · rw [ht]
      exact hold.insert (by omega) n

theorem noted_start (position : Nat) : (ParseState.start kind).Noted position := by
  refine ⟨?_, ?_, ?_⟩ <;> intro k v hk <;> simp [ParseState.start] at hk

/-- The state in which a command is read depends on the place and the byte there only. -/
theorem ready_congr (s : ParseState) (catalog : Catalog) (kind : ScriptKind) {c d : Cursor}
    (hpos : d.position = c.position) (hpeek : d.peek? = c.peek?) :
    s.ready catalog kind d = s.ready catalog kind c ∧
      s.entry catalog kind d = s.entry catalog kind c := by
  have hlabel : atCaseLabel catalog kind d = atCaseLabel catalog kind c := by
    rw [atCaseLabel, atCaseLabel, hpeek]
  have hclose : s.closeBlocks catalog kind d = s.closeBlocks catalog kind c := by
    rw [closeBlocks, closeBlocks, hpos, hlabel]
  rw [ready, ready, entry, entry, hclose, hpos, hpeek]
  exact ⟨rfl, rfl⟩

/-- A script of the one state is in the script of the other. -/
theorem Within.script {s t : ParseState} (h : s.Within t) (id : ScriptId) (stop stop' : Option Nat) :
    (s.script id stop).offsets.Within (t.script id stop').offsets := by
  intro o index ho
  rw [ParseState.script, Std.TreeMap.getElem?_filter', Option.filter_eq_some_iff] at ho ⊢
  refine ⟨h.offsets o index ho.1, ?_⟩
  have hle := h.commands.length_le
  have hlt : index < s.commands.size := by simpa using ho.2
  rw [Array.length_toList, Array.length_toList] at hle
  simpa using Nat.lt_of_lt_of_le hlt hle

end ParseState

/-! ### Two loops in step -/

section
variable {catalog : Catalog} {kind : ScriptKind}

/-- The loop only adds. -/
theorem ParseRun.within {c : Cursor} {s s' : ParseState} {stop : Option (Nat × ParseError)}
    (h : ParseRun catalog kind c s s' stop) (hs : s.Noted c.position) : s.Within s' := by
  induction h with
  | done => exact .refl _
  | failed => exact hs.ready
  | more _ hr _ ih =>
      exact (hs.ready.trans (hs.within_add _)).trans (ih (hs.add (position_lt_of_readCommand hr) _))

theorem ParseRun.eq_of_error {c : Cursor} {s s' : ParseState} {stop : Option (Nat × ParseError)}
    {e : ParseError} (h : ParseRun catalog kind c s s' stop) (hend : c.atEnd = false)
    (hr : (readCommand catalog kind (s.ready catalog kind c).enclosing c.position).run c =
      .error e) : s' = s.ready catalog kind c ∧ stop = some (c.position, e) := by
  cases h with
  | done h => rw [h] at hend; cases hend
  | failed _ h =>
      rw [h] at hr
      cases hr
      exact ⟨rfl, rfl⟩
  | more _ h _ => rw [h] at hr; cases hr

/-- What the loop has before it reads a command it has in the end. -/
theorem ParseRun.ready_within {c : Cursor} {s s' : ParseState} {stop : Option (Nat × ParseError)}
    (h : ParseRun catalog kind c s s' stop) (hend : c.atEnd = false) (hs : s.Noted c.position) :
    (s.ready catalog kind c).Within s' := by
  cases h with
  | done h => rw [h] at hend; cases hend
  | failed => exact .refl _
  | more _ hr hrest =>
      exact (hs.within_add _).trans (hrest.within (hs.add (position_lt_of_readCommand hr) _))

/-- **The loops over the beginning and over the whole go in step.** When the first one stops, the
second has everything it has; and if it did not stop for want of bytes, the second stops with it. -/
theorem ParseRun.longer {more : List UInt8} {c d : Cursor} {s s₁ s₂ : ParseState}
    {stop₁ stop₂ : Option (Nat × ParseError)} (h₁ : ParseRun catalog kind c s s₁ stop₁)
    (h₂ : ParseRun catalog kind d s s₂ stop₂) (hlonger : c.Longer more d)
    (hs : s.Noted c.position) :
    s₁.Within s₂ ∧
      ∀ o e, stop₁ = some (o, e) → e.isOverrun = false → s₂ = s₁ ∧ stop₂ = stop₁ := by
  induction h₁ generalizing d with
  | done =>
      rw [← hlonger.position] at hs
      exact ⟨h₂.within hs, by simp⟩
  | @failed c s e hend hr =>
      obtain ⟨hready, -⟩ := s.ready_congr catalog kind hlonger.position
        (hlonger.peek? hend)
      refine ⟨?_, ?_⟩
      · rw [← hlonger.position] at hs
        rw [← hready]
        exact h₂.ready_within (hlonger.atEnd hend) hs
      · intro o e' he hover
        obtain ⟨rfl, rfl⟩ := Prod.mk.inj (Option.some.inj he)
        have hr' := (readCommand_steady _ _ _ _).fails hlonger hr hover
        rw [← hready, ← hlonger.position] at hr'
        obtain ⟨rfl, rfl⟩ := h₂.eq_of_error (hlonger.atEnd hend) hr'
        exact ⟨hready, by rw [hlonger.position]⟩
  | @more c after s s₁ command stop₁ hend hr _ ih =>
      obtain ⟨hready, hentry⟩ := s.ready_congr catalog kind
        hlonger.position (hlonger.peek? hend)
      obtain ⟨after', hr', hafter⟩ := (readCommand_steady _ _ _ _).reads hlonger hr
      rw [← hready, ← hlonger.position] at hr'
      have h₂' := h₂.next (hlonger.atEnd hend) hr'
      rw [hready, hentry] at h₂'
      exact ih h₂' hafter (hs.add (position_lt_of_readCommand hr) command)

end

/-! ### Scripts -/

/-- The codes of the failures that more bytes cannot mend: an opcode, a predicate or an operator that
no table has, and a label outside a switch. -/
def ParseError.finalCodes : List Nat := [101, 102, 103, 104]

theorem ParseError.code_mem_finalCodes_iff (e : ParseError) :
    e.code ∈ finalCodes ↔ e.isOverrun = false := by
  cases e <;> simp [code, finalCodes, isOverrun]

/-- **Parsing is stable under more bytes.** The commands of a beginning are the first commands of the
whole, and its three maps are in those of the whole. If the beginning has a code that no table has or
a label outside a switch, whatever follows changes nothing at all. -/
theorem parseScript_append (catalog : Catalog) (scene : Nat) (id : ScriptId)
    (bytes more : List UInt8) :
    let part := (parseScript catalog scene id bytes).1
    let whole := (parseScript catalog scene id (bytes ++ more)).1
    (part.commands.toList <+: whole.commands.toList ∧
      (∀ o index : Nat, part.offsets[o]? = some index → whole.offsets[o]? = some index) ∧
      (∀ (k : Nat) (n : Int), part.behaviors[k]? = some n → whole.behaviors[k]? = some n) ∧
      ∀ (k : Nat) (n : Int), part.tracks[k]? = some n → whole.tracks[k]? = some n) ∧
    ((∃ d ∈ (parseScript catalog scene id bytes).2, d.code ∈ ParseError.finalCodes) →
      parseScript catalog scene id (bytes ++ more) = parseScript catalog scene id bytes) := by
  obtain ⟨s, stop, hrun, he⟩ := parseScript_eq catalog scene id bytes
  obtain ⟨t, stop', hrun', he'⟩ := parseScript_eq catalog scene id (bytes ++ more)
  have hlonger : (Cursor.start bytes).Longer more (.start (bytes ++ more)) := ⟨rfl, rfl⟩
  obtain ⟨hwithin, hsame⟩ := hrun.longer hrun' hlonger (ParseState.noted_start _)
  rw [he, he']
  refine ⟨⟨hwithin.commands, hwithin.script id _ _, hwithin.behaviors, hwithin.tracks⟩, ?_⟩
  rintro ⟨d, hd, hcode⟩
  obtain ⟨⟨o, e⟩, hf, rfl⟩ := List.mem_map.mp hd
  have hover : e.isOverrun = false := e.code_mem_finalCodes_iff.mp hcode
  obtain ⟨rfl, rfl⟩ := hsame o e (Option.mem_toList.mp hf) hover
  rfl

/-- Behind an operator that no table has nothing is read, whatever would make its IF complete. -/
theorem parseScript_append_unknown :
    let bytes : List UInt8 := [0x26, 0x0C, 0x03, 0x09]
    (∃ d ∈ (parseScript .standard 0 (.life 0) bytes).2, d.code ∈ ParseError.finalCodes) ∧
      parseScript .standard 0 (.life 0) (bytes ++ [0x01, 0x08, 0x00, 0x00]) =
        parseScript .standard 0 (.life 0) bytes := by
  intro bytes
  have h : ∃ d ∈ (parseScript .standard 0 (.life 0) bytes).2, d.code ∈ ParseError.finalCodes := by
    decide +kernel
  exact ⟨h, (parseScript_append .standard 0 (.life 0) bytes [0x01, 0x08, 0x00, 0x00]).2 h⟩

end SceneScript
