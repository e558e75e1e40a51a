import SceneScript.Proofs.OffsetMap
import SceneScript.Proofs.References

/-! # Where jumps lead after a truncation

A script that fails to parse keeps the commands in front of the failure, and the map of its offsets
is cut to them. The offset of the failing command is noted before the command is read. It drops out
of the map again, unless a behavior was due there: the start that was added for the behavior stands
at the noted index.

* `ParseRun.stop_mapped_iff`: the offset of the failure stays in the map exactly when the last
  command is an added start of a behavior.
* `Command.leadsInto?`: the script that a raw offset of a command leads into, in any catalog.
* `SceneSource.target_leadsInto`: every target of a compiled scene is the index that its number has
  in the map of that script.
* `SceneSource.mapped_of_truncated`: both together, for every script of a scene that was cut short. -/

namespace SceneScript

/-! ### The offset of the failure -/

/-- Whether the last command is the added start of a behavior. -/
def endsInStart (commands : Array Command) : Bool :=
  commands.back?.any fun c => c.isMarker .behaviour

theorem endsInStart_push (commands : Array Command) (c : Command) :
    endsInStart (commands.push c) = c.isMarker .behaviour := by
  rw [endsInStart, Array.back?_push, Option.any_some]

section
variable {catalog : Catalog} {kind : ScriptKind}

/-- Behind the end of a block the last command is no start. -/
theorem endsInStart_closeBlocks {s : ParseState} (h : endsInStart s.commands = false) (c : Cursor) :
    endsInStart (s.closeBlocks catalog kind c).commands = false := by
  have hifs : endsInStart (s.closeIfs catalog c.position).commands = false := by
    refine ParseState.closeIfs_induct (P := fun s => endsInStart s.commands = false) ?_ h
    intro s rest _ _
    exact (endsInStart_push _ _).trans (Command.isMarker_implicit catalog rfl [] .behaviour)
  unfold ParseState.closeBlocks
  split
  · exact hifs
  · refine ParseState.closeSwitches_induct (P := fun s => endsInStart s.commands = false) ?_ hifs
    intro s f rest _ _ _
    exact (endsInStart_push _ _).trans (Command.isMarker_implicit catalog rfl [] .behaviour)

/-- When a command is due, the last one is a start exactly when the index noted for the offset is
that of the start. -/
theorem entry_lt_size_ready_iff {s : ParseState} (h : endsInStart s.commands = false) (c : Cursor) :
    s.entry catalog kind c < (s.ready catalog kind c).commands.size ↔
      endsInStart (s.ready catalog kind c).commands = true := by
  unfold ParseState.entry ParseState.ready
  rcases ParseState.startBehavior_commands catalog ((s.closeBlocks catalog kind c).enter c.position)
    (c.peek?.getD 0) with hsame | ⟨n, hstart⟩
  · rw [hsame]
    have hclosed : endsInStart (s.closeBlocks catalog kind c).commands = false :=
      endsInStart_closeBlocks h c
    simp [ParseState.enter, hclosed]
  · rw [hstart, endsInStart_push, Command.isMarker_implicit catalog rfl, Array.size_push]
    simp [ParseState.enter]

/-- **The offset of the failure** is noted, and its index is one of a command exactly when the
last command is an added start. Between two commands the last one was read, so it is no start. -/
theorem ParseRun.stop_mapped_iff {c : Cursor} {s s' : ParseState} {stop : Option (Nat × ParseError)}
    (h : ParseRun catalog kind c s s' stop) (hs : endsInStart s.commands = false) {t : Nat}
    {e : ParseError} (hstop : stop = some (t, e)) :
    ∃ index, s'.offsets[t]? = some index ∧
      (index < s'.commands.size ↔ endsInStart s'.commands = true) := by
  induction h with
  | done => cases hstop
  | @failed c s e' hend hr =>
      cases hstop
      refine ⟨s.entry catalog kind c, ?_, entry_lt_size_ready_iff hs c⟩
      rw [ParseState.ready_offsets, Std.TreeMap.getElem?_insert_self]
  | @more c after s s' command stop hend hr _ ih =>
      obtain ⟨-, hoff, -⟩ := readCommand_eq_ok_iff.mp hr
      refine ih ?_ hstop
      rw [ParseState.add_commands, endsInStart_push, Command.not_isMarker_of_offset hoff]

end

/-- The offset where reading failed is in the map exactly when the last command is an added start of
a behavior. -/
theorem truncatedAt_mem_offsets_iff {catalog : Catalog} {scene : Nat} {id : ScriptId}
    {bytes : List UInt8} {t : Nat}
    (ht : (parseScript catalog scene id bytes).1.truncatedAt = some t) :
    t ∈ (parseScript catalog scene id bytes).1.offsets ↔
      endsInStart (parseScript catalog scene id bytes).1.commands = true := by
  obtain ⟨s, stop, hrun, he⟩ := parseScript_eq catalog scene id bytes
  rw [he] at ht ⊢
  obtain ⟨⟨o, e⟩, hstop, rfl⟩ := Option.map_eq_some_iff.mp ht
  obtain ⟨index, hindex, hiff⟩ := hrun.stop_mapped_iff rfl hstop
  rw [Std.TreeMap.mem_iff_isSome_getElem?]
  change ((s.offsets.filter fun _ index => index < s.commands.size)[o]?).isSome = true ↔
    endsInStart s.commands = true
  rw [Std.TreeMap.getElem?_filter', hindex, ← hiff]
  simp [Option.filter]

/-- What is left in the map of a script that was cut short leads to its commands, from in front of
the failure or from the offset of the failure to the start that was added there. -/
theorem lt_or_eq_of_indexOf? {catalog : Catalog} {scene : Nat} {id : ScriptId} {bytes : List UInt8}
    {n k t : Nat} (h : (parseScript catalog scene id bytes).1.indexOf? n = some k)
    (ht : (parseScript catalog scene id bytes).1.truncatedAt = some t) :
    n < t ∨ n = t ∧ k + 1 = (parseScript catalog scene id bytes).1.commands.size ∧
      endsInStart (parseScript catalog scene id bytes).1.commands = true := by
  rcases leads_of_indexOf? h with ⟨c, hc, ho⟩ | ⟨m, hm, ⟨c, hc, ho⟩ | ⟨hlast, hstop⟩⟩
  · exact .inl (lt_of_parseScript_truncatedAt hc ho ht)
  · exact .inl (lt_of_parseScript_truncatedAt hc ho ht)
  · obtain rfl : t = n := Option.some.inj (ht.symm.trans hstop)
    refine .inr ⟨rfl, hlast, ?_⟩
    rw [endsInStart, Array.back?_eq_getElem?, ← hlast, Nat.add_sub_cancel, hm, Option.any_some,
      Command.isMarker_implicit catalog rfl]
    rfl

/-! ### Targets -/

/-- The script that the raw offset in argument `k` of a command of the script `id` leads into. An
argument with the role of an offset is one into the script itself, whatever the operation. -/
def Command.leadsInto? (c : Command) (id : ScriptId) (k : Nat) : Option ScriptId :=
  if c.args[k]?.any fun a => a.slot.role == .offset then some id else c.refersTo? id k

/-- An argument before it is linked. -/
def Argument.Unlinked (a : Argument) : Prop := ∀ t, a.value ≠ .target t

theorem Argument.Fits.unlinked {a : Argument} (h : a.Fits) : a.Unlinked := by
  intro t ht
  unfold Argument.Fits Value.Fits at h
  simp [ht] at h

theorem parseScript_unlinked {catalog : Catalog} {scene : Nat} {id : ScriptId} {bytes : List UInt8}
    {c : Command} (h : c ∈ (parseScript catalog scene id bytes).1.commands) :
    ∀ a ∈ c.args, a.Unlinked := by
  rcases parseScript_commands_conform h with hadded | ⟨enclosing, hconf⟩
  · cases hadded <;> simp [Command.implicit, Argument.Unlinked]
  · exact fun a ha => (hconf.args.2 a ha).unlinked

theorem operand_eq_target_iff {layout : Layout} {a : Argument} {t : Nat} :
    (Compile.operand layout a).1 = .target t ↔ a.value = .target t := by
  unfold Compile.operand
  repeat' split
  all_goals simp_all

namespace Link

theorem resolve_eq_target {destination : Option ParsedScript} {name : String} {a : Argument} {t : Nat}
    (h : (resolve destination name a).1.value = .target t) :
    a.value = .target t ∨ ∃ n : Nat, a.value = .number n ∧
      ∃ d, destination = some d ∧ d.indexOf? n = some t := by
  obtain ⟨slot, value⟩ := a
  cases value with
  | number n =>
      rcases resolve_number destination name slot n with ⟨t', hlookup, he⟩ | ⟨-, he⟩
      · rw [he] at h
        obtain rfl : t' = t := Value.target.inj h
        rw [lookup] at hlookup
        split at hlookup
        · next hn =>
            obtain ⟨d, hd, hindex⟩ := Option.bind_eq_some_iff.mp hlookup
            exact .inr ⟨n.toNat, by rw [Int.toNat_of_nonneg hn], d, hd, hindex⟩
        · cases hlookup
      · rw [he] at h
        cases h
  | text s => cases h
  | target t' => exact .inl h
  | unresolved n => cases h

theorem abandon_ne_target {a : Argument} {t : Nat} (h : (abandon a).value = .target t) :
    a.value = .target t := by
  obtain ⟨slot, value⟩ := a
  cases value <;> simp_all [abandon]

theorem role_ne_of_ownArgument {own : Option ParsedScript} {name : String} {a : Argument} {n : Int}
    (h : (ownArgument own name a).1.value = .number n) : a.slot.role ≠ .offset := by
  intro hrole
  obtain ⟨slot, value⟩ := a
  rw [ownArgument, if_pos hrole] at h
  cases value with
  | number m =>
      rcases resolve_number own name slot m with ⟨t, -, he⟩ | ⟨-, he⟩ <;> rw [he] at h <;> cases h
  | text s => cases h
  | target t => cases h
  | unresolved m => cases h

theorem ownArgument_eq_target {own : Option ParsedScript} {name : String} {a : Argument} {t : Nat}
    (hraw : a.Unlinked) (h : (ownArgument own name a).1.value = .target t) :
    a.slot.role = .offset ∧ ∃ n : Nat, a.value = .number n ∧
      ∃ d, own = some d ∧ d.indexOf? n = some t := by
  by_cases hrole : a.slot.role = .offset
  · rw [ownArgument, if_pos hrole] at h
    exact ⟨hrole, (resolve_eq_target h).resolve_left (hraw t)⟩
  · rw [ownArgument_of_role_ne hrole] at h
    exact absurd h (hraw t)

theorem firstNumber?_of_ownArgument {own : Option ParsedScript} {c : Command} {m : Int}
    (h : ({ c with args := c.args.map fun a => (ownArgument own c.name a).1 } :
      Command).firstNumber? = some m) : c.firstNumber? = some m := by
  unfold Command.firstNumber? Command.jump? at h ⊢
  cases hargs : c.args with
  | nil => simp [hargs] at h
  | cons a rest =>
      simp only [hargs, List.map_cons, List.head?_cons, Option.map_some, Option.bind_some] at h ⊢
      have hnumber : (ownArgument own c.name a).1.value = .number m := by
        cases hv : (ownArgument own c.name a).1.value <;> simp_all [Value.number?]
      rwa [ownArgument_of_role_ne (role_ne_of_ownArgument hnumber)] at h

theorem crossActor_eq_some {actors : Array ParsedActor} {own x : Nat} {r : CrossReference}
    {c : Command} (h : (crossActor actors own r c).1 = some x) :
    if r.named then ∃ m : Int, c.firstNumber? = some m ∧ m.toNat? = some x else x = own := by
  unfold crossActor targetActor at h
  cases hr : r.named with
  | false => simpa [hr] using h.symm
  | true =>
      simp only [hr, if_true] at h ⊢
      cases hm : c.firstNumber? with
      | none => simp [hm] at h
      | some m =>
          simp only [hm] at h
          split at h
          · next hn =>
              refine ⟨m, rfl, ?_⟩
              obtain rfl := Option.some.inj h
              exact Int.mem_toNat?.mpr (Int.toNat_of_nonneg hn.1).symm
          · cases h

/-- A reference into another script replaces the argument that holds it: it is given up, or resolved
in the script of the actor that is meant. -/
theorem resolveCross_args {actors : Array ParsedActor} {own : Nat} {r : CrossReference} {c : Command}
    {a : Argument} (ha : c.args[r.slot]? = some a) :
    ∃ b, (resolveCross actors own r c).1.args = c.args.set r.slot b ∧
      (b = abandon a ∨ ∃ x, (crossActor actors own r c).1 = some x ∧
        b = (resolve (actors[x]?.map fun p => p.script r.kind) c.name a).1) := by
  rw [resolveCross_eq ha]
  cases hx : (crossActor actors own r c).1 with
  | none => exact ⟨abandon a, rfl, .inl rfl⟩
  | some x => exact ⟨_, rfl, .inr ⟨x, rfl, rfl⟩⟩

end Link

theorem refersTo?_of_crossReference? {c : Command} {id : ScriptId} {r : Link.CrossReference}
    (h : Link.crossReference? c.opcode.operation = some r) :
    c.refersTo? id r.slot =
      if r.named then c.named?.map fun a => ⟨a, r.kind⟩ else some ⟨id.actor, r.kind⟩ := by
  unfold Command.refersTo?
  cases hop : c.opcode.operation <;> rw [hop] at h <;> cases h <;> rfl

theorem refersTo?_of_crossActor {actors : Array ParsedActor} {own : Option ParsedScript}
    {c : Command} {id : ScriptId} {r : Link.CrossReference} {x : Nat}
    (h : Link.crossReference? c.opcode.operation = some r)
    (hx : (Link.crossActor actors id.actor r { c with args := c.args.map fun a =>
      (Link.ownArgument own c.name a).1 }).1 = some x) :
    c.refersTo? id r.slot = some ⟨x, r.kind⟩ := by
  have hactor := Link.crossActor_eq_some hx
  rw [refersTo?_of_crossReference? h]
  cases hr : r.named with
  | false =>
      simp only [hr, Bool.false_eq_true, if_false] at hactor ⊢
      rw [hactor]
  | true =>
      simp only [hr, if_true] at hactor ⊢
      obtain ⟨m, hm, hx⟩ := hactor
      rw [Command.named?, Link.firstNumber?_of_ownArgument hm, Option.bind_some, hx, Option.map_some]

namespace SceneSource

variable {catalog : Catalog} {source : SceneSource} {id : ScriptId} {c : Command} {slot t : Nat}

theorem own_leadsInto (hraw : ∀ a ∈ c.args, a.Unlinked) {b : Argument}
    (hb : (c.args.map fun a =>
      (Link.ownArgument (source.parsed? catalog id) c.name a).1)[slot]? = some b)
    (ht : b.value = .target t) :
    ∃ dest d, ∃ n : Nat, c.leadsInto? id slot = some dest ∧
      c.args[slot]?.map Argument.value = some (.number n) ∧
      source.parsed? catalog dest = some d ∧ d.indexOf? n = some t := by
  rw [List.getElem?_map, Option.map_eq_some_iff] at hb
  obtain ⟨a, ha, rfl⟩ := hb
  obtain ⟨hrole, n, hn, d, hd, hindex⟩ :=
    Link.ownArgument_eq_target (hraw a (List.mem_of_getElem? ha)) ht
  refine ⟨id, d, n, ?_, by rw [ha, Option.map_some, hn], hd, hindex⟩
  simp [Command.leadsInto?, ha, hrole]

/-- An argument of a linked command that is a target is the index that its number has in the script
it leads into. -/
theorem linked_leadsInto (hraw : ∀ a ∈ c.args, a.Unlinked) {b : Argument}
    (hb : (source.linked catalog id c).args[slot]? = some b) (ht : b.value = .target t) :
    ∃ dest d, ∃ n : Nat, c.leadsInto? id slot = some dest ∧
      c.args[slot]?.map Argument.value = some (.number n) ∧
      source.parsed? catalog dest = some d ∧ d.indexOf? n = some t := by
  have hscript : ((source.parsed catalog)[id.actor]?.map fun p => p.script id.kind) =
      source.parsed? catalog id := rfl
  unfold linked Link.command at hb
  simp only [Link.resolveOffsets_eq, hscript] at hb
  cases hx : Link.crossReference? c.opcode.operation with
  | none =>
      simp only [hx] at hb
      exact own_leadsInto hraw hb ht
  | some r =>
      simp only [hx] at hb
      cases harg : (c.args.map fun a =>
          (Link.ownArgument (source.parsed? catalog id) c.name a).1)[r.slot]? with
      | none =>
          unfold Link.resolveCross at hb
          simp only [harg] at hb
          exact own_leadsInto hraw hb ht
      | some a' =>
          obtain ⟨b', hargs, hb'⟩ := @Link.resolveCross_args (source.parsed catalog)
            id.actor r { c with args := c.args.map fun a =>
              (Link.ownArgument (source.parsed? catalog id) c.name a).1 } a' harg
          rw [hargs, List.getElem?_set] at hb
          split at hb
          · next hslot =>
              subst hslot
              have hbb' : b' = b := by
                split at hb
                · exact Option.some.inj hb
                · cases hb
              subst hbb'
              rcases hb' with rfl | ⟨x, hactor, rfl⟩
              · exact own_leadsInto hraw harg (Link.abandon_ne_target ht)
              · rcases Link.resolve_eq_target ht with htarget | ⟨n, hn, d, hd, hindex⟩
                · exact own_leadsInto hraw harg htarget
                · rw [List.getElem?_map, Option.map_eq_some_iff] at harg
                  obtain ⟨a, ha, rfl⟩ := harg
                  have hrole := Link.role_ne_of_ownArgument hn
                  rw [Link.ownArgument_of_role_ne hrole] at hn
                  refine ⟨⟨x, r.kind⟩, d, n, ?_, by rw [ha, Option.map_some, hn], hd, hindex⟩
                  rw [← refersTo?_of_crossActor hx hactor]
                  simp [Command.leadsInto?, ha, hrole]
          · exact own_leadsInto hraw hb ht

/-- Every target of a compiled scene is the index that its number has in the script it leads
into. -/
theorem target_leadsInto {p : Program} {k : Nat} {i : Instruction}
    (hp : (compileScene catalog source).program? id = some p) (hi : p.instructions[k]? = some i)
    (ht : i.operands[slot]? = some (.target t)) :
    ∃ s c, source.parsed? catalog id = some s ∧ s.commands[k]? = some c ∧ i.opcode = c.opcode ∧
      i.offset = c.offset ∧ ∃ dest d, ∃ n : Nat, c.leadsInto? id slot = some dest ∧
        c.args[slot]?.map Argument.value = some (.number n) ∧
        source.parsed? catalog dest = some d ∧ d.indexOf? n = some t := by
  rw [program?_compileScene, Option.map_eq_some_iff] at hp
  obtain ⟨s, hs, rfl⟩ := hp
  rw [getElem?_instructions catalog source hs, Option.map_eq_some_iff] at hi
  obtain ⟨c, hc, rfl⟩ := hi
  refine ⟨s, c, hs, hc, instruction_opcode, instruction_offset, ?_⟩
  have hraw : ∀ a ∈ c.args, a.Unlinked := by
    rw [parsed?_eq, Option.map_eq_some_iff] at hs
    obtain ⟨bytes, -, rfl⟩ := hs
    exact parseScript_unlinked (Array.mem_of_getElem? hc)
  rw [instruction_operands, List.getElem?_map, Option.map_eq_some_iff] at ht
  obtain ⟨b, hb, hoperand⟩ := ht
  exact linked_leadsInto hraw hb (operand_eq_target_iff.mp hoperand)

/-! ### Scripts that were cut short -/

/-- **What stays mapped after a failure.** In the map of a script that was cut short at byte `t`,
every offset leads to a command, and lies in front of `t` or is `t`. The offset `t` is in the map
exactly when the last command is the added start of a behavior, and then leads to that start. So a
jump of the scene into the script is resolved only if it is for a byte in front of `t`, or for `t`
where the script ends in the start of a behavior. -/
theorem mapped_of_truncated {catalog : Catalog} {source : SceneSource} {dest : ScriptId}
    {bytes : List UInt8} {t : Nat} (hbytes : source.bytes? dest = some bytes)
    (ht : (parseScript catalog source.index dest bytes).1.truncatedAt = some t) :
    let d := (parseScript catalog source.index dest bytes).1
    (∀ n k : Nat, d.offsets[n]? = some k → k < d.commands.size ∧
      (n < t ∨ n = t ∧ k + 1 = d.commands.size ∧ endsInStart d.commands = true)) ∧
    (t ∈ d.offsets ↔ endsInStart d.commands = true) ∧
    ∀ (id : ScriptId) (p : Program) (k : Nat) (i : Instruction) (slot j : Nat),
      (compileScene catalog source).program? id = some p → p.instructions[k]? = some i →
      i.operands[slot]? = some (.target j) →
      ∃ s c, ∃ n : Nat, source.parsed? catalog id = some s ∧ s.commands[k]? = some c ∧
        c.args[slot]?.map Argument.value = some (.number n) ∧
        (c.leadsInto? id slot = some dest → j < d.commands.size ∧
          (n < t ∨ n = t ∧ j + 1 = d.commands.size ∧ endsInStart d.commands = true)) := by
  have hmapped : ∀ n k : Nat,
      (parseScript catalog source.index dest bytes).1.indexOf? n = some k →
      k < (parseScript catalog source.index dest bytes).1.commands.size ∧ _ :=
    fun n k h => ⟨lt_size_of_parseScript_indexOf? h, lt_or_eq_of_indexOf? h ht⟩
  refine ⟨hmapped, truncatedAt_mem_offsets_iff ht, ?_⟩
  intro id p k i slot j hp hi hj
  obtain ⟨s, c, hs, hc, -, -, dest', d, n, hdest, hn, hd, hindex⟩ := target_leadsInto hp hi hj
  refine ⟨s, c, n, hs, hc, hn, ?_⟩
  intro hleads
  obtain rfl : dest = dest' := Option.some.inj (hleads.symm.trans hdest)
  rw [parsed?_eq, hbytes, Option.map_some, Option.some.injEq] at hd
  subst hd
  exact hmapped n j hindex

/-- A script whose jump is for the byte that fails, behind another command of its behavior: the
offset is not in the map, and the jump is resolved to nothing. -/
theorem mapped_of_truncated_inside :
    let bytes : List UInt8 := [0x03, 4, 0, 0x01, 0xFF]
    let source : SceneSource := { actors := [{ life := bytes }] }
    let d := (parseScript .standard source.index (.life 0) bytes).1
    d.truncatedAt = some 4 ∧ 4 ∉ d.offsets ∧
      ∃ p i, (compileScene .standard source).program? (.life 0) = some p ∧
        p.instructions[1]? = some i ∧ ∀ j, i.operands[0]? ≠ some (.target j) := by
  intro bytes source d
  have ht : (parseScript .standard source.index (.life 0) bytes).1.truncatedAt = some 4 := by
    decide +kernel
  have hend : endsInStart (parseScript .standard source.index (.life 0) bytes).1.commands = false := by
    decide +kernel
  obtain ⟨-, hmem, hjumps⟩ := @mapped_of_truncated .standard source (.life 0) bytes 4 rfl ht
  refine ⟨ht, by rw [hmem, hend]; decide, ?_⟩
  have hsome : (((compileScene .standard source).program? (.life 0)).bind fun p =>
      p.instructions[1]?).isSome = true := by decide +kernel
  obtain ⟨i, hbind⟩ := Option.isSome_iff_exists.mp hsome
  obtain ⟨p, hp, hi⟩ := Option.bind_eq_some_iff.mp hbind
  refine ⟨p, i, hp, hi, ?_⟩
  intro j hj
  obtain ⟨s, c, n, hs, hc, hn, hleads⟩ := hjumps (.life 0) p 1 i 0 j hp hi hj
  have hcommand : (((source.parsed? .standard (.life 0)).bind fun s => s.commands[1]?).map fun c =>
      (c.leadsInto? (.life 0) 0, c.args[0]?.map Argument.value)) =
        some (some (.life 0), some (.number 4)) := by decide +kernel
  rw [hs, Option.bind_some, hc, Option.map_some, Option.some.injEq, Prod.mk.injEq] at hcommand
  obtain rfl : n = 4 := by
    have hvalue : (n : Int) = 4 := Value.number.inj (Option.some.inj (hn.symm.trans hcommand.2))
    omega
  rcases (hleads hcommand.1).2 with hlt | ⟨-, -, hstart⟩
  · omega
  · exact absurd (hend.symm.trans hstart) (by decide)

/-- A script whose jump is for the byte that fails, where a behavior was due: the offset is in the
map, and the jump is resolved to the start that was added there, the last command. -/
theorem mapped_of_truncated_due :
    let bytes : List UInt8 := [0x03, 4, 0, 0x23, 0xFF]
    let source : SceneSource := { actors := [{ life := bytes }] }
    let d := (parseScript .standard source.index (.life 0) bytes).1
    d.truncatedAt = some 4 ∧ 4 ∈ d.offsets ∧ d.indexOf? 4 = some 3 ∧ d.commands.size = 4 ∧
      (((compileScene .standard source).program? (.life 0)).bind fun p =>
        p.instructions[1]?.bind fun i => i.operands[0]?) = some (.target 3) := by
  decide +kernel

end SceneSource

end SceneScript
