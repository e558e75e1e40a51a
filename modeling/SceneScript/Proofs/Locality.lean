import SceneScript.Proofs.References

/-! # Compilation, script by script

All scripts of a scene are compiled together, but each from its own bytes. What another script adds
are the places where its commands start, and only instructions that refer into it ask for these.

* `Instruction.RefersInto`: the operands that are references into another script.
* `operands_getElem?_of_not_refersAt`: an operand that is no reference depends on the size of the
  scene only.
* `refersInto_of_refersTo?`: a reference that leads into another script of the scene is one of those
  operands.
* `compileScene_local`: scenes that differ in the bytes of one script differ in that script and in
  the references into it. -/

namespace SceneScript

/-! ### Agreement -/

/-- Operand `slot` of an instruction of the script `id` is a reference into the script `dest`, for
the three operations that refer into other scripts. -/
def Instruction.RefersInto (i : Instruction) (id dest : ScriptId) (slot : Nat) : Prop :=
  (i.operation = .setTrackObj ∧ dest.kind = .move ∨
      i.operation = .setBehaviourObj ∧ dest.kind = .life) ∧
    i.operands[0]? = some (.actor dest.actor) ∧ slot = 1 ∨
  i.operation = .setTrack ∧ dest.kind = .move ∧ id = .life dest.actor ∧ slot = 0

/-- What a reference to the byte `n` may be bound to. -/
inductive Operand.Binds (n : Nat) : Operand → Prop
  | target (t : Nat) : Binds n (.target t)
  | unresolved : Binds n (.unresolved n)

/-- Two instructions of the script `id` are the same but for their references into the script
`dest`, and these refer to the same byte, found or not. -/
structure Instruction.AgreesBut (id dest : ScriptId) (i j : Instruction) : Prop where
  rest : j = { i with operands := j.operands }
  length : j.operands.length = i.operands.length
  operands : ∀ slot, ¬ i.RefersInto id dest slot → j.operands[slot]? = i.operands[slot]?
  references : ∀ slot, i.RefersInto id dest slot → ∃ n o o',
    i.operands[slot]? = some o ∧ Operand.Binds n o ∧
    j.operands[slot]? = some o' ∧ Operand.Binds n o'

/-- Two programs of the script `id` are the same but for the references into the script `dest`. -/
structure Program.AgreesBut (id dest : ScriptId) (p q : Program) : Prop where
  ids : p.id = id ∧ q.id = id
  behaviors : q.behaviors = p.behaviors
  tracks : q.tracks = p.tracks
  instructions : ∀ k : Nat,
    Option.Rel (Instruction.AgreesBut id dest) p.instructions[k]? q.instructions[k]?

def CompiledScene.state? (s : CompiledScene) (id : ScriptId) : Option ScriptState :=
  s.actors[id.actor]?.map fun a => a.state.get id.kind

namespace SceneSource

/-- Two scenes of the same size with the same scripts, all but one. -/
structure DiffersAt (source other : SceneSource) (changed : ScriptId) : Prop where
  index : other.index = source.index
  pointCount : other.pointCount = source.pointCount
  actorCount : other.actors.length = source.actors.length
  bytes : ∀ id, id ≠ changed → other.bytes? id = source.bytes? id

theorem DiffersAt.layout {source other : SceneSource} {changed : ScriptId}
    (h : source.DiffersAt other changed) : other.layout = source.layout := by
  rw [SceneSource.layout, SceneSource.layout, h.actorCount, h.pointCount]

theorem DiffersAt.parsed? {source other : SceneSource} {changed id : ScriptId}
    (h : source.DiffersAt other changed) (catalog : Catalog) (hne : id ≠ changed) :
    other.parsed? catalog id = source.parsed? catalog id := by
  rw [parsed?_eq, parsed?_eq, h.bytes id hne, h.index]

/-! ### Operands -/

section
variable {catalog : Catalog} {source : SceneSource} {id : ScriptId} {index : Nat}
  {part : Option Int} {c : Command}

theorem length_operands :
    (source.instruction catalog id index part c).operands.length = c.args.length := by
  have hargs : (source.linked catalog id c).args.length = c.args.length := by
    unfold linked Link.command
    simp only [Link.resolveOffsets_eq]
    split
    · simp
    · unfold Link.resolveCross
      dsimp only
      repeat' split
      all_goals simp
  rw [instruction_operands, List.length_map, hargs]

theorem refersAway_of_crossReference? {o : Operation} {r : Link.CrossReference}
    (h : Link.crossReference? o = some r) : o.refersAway r.slot = true := by
  cases o <;> cases h <;> rfl

theorem operands_getElem?_of_not_refersAt {k : Nat} (hk : c.refersAt k = false) :
    (source.instruction catalog id index part c).operands[k]? =
      c.args[k]?.map fun a => (Compile.operand source.layout a).1 := by
  cases ha : c.args[k]? with
  | none =>
      rw [Option.map_none, List.getElem?_eq_none_iff, length_operands]
      exact List.getElem?_eq_none_iff.mp ha
  | some a =>
      rw [Command.refersAt, ha, Option.any_some, Bool.or_eq_false_iff, beq_eq_false_iff_ne] at hk
      rw [Option.map_some]
      refine operands_getElem?_of_role_ne ha hk.1 ?_
      rintro r hr rfl
      rw [refersAway_of_crossReference? hr] at hk
      exact absurd hk.2 (by decide)

/-- A reference has its number and the script it leads into from its command, and the rest from the
scene. -/
theorem operand_of_refersAt (catalog : Catalog) (id : ScriptId) (hform : c.Form) {k : Nat}
    (hk : c.refersAt k = true) :
    ∃ (dest : ScriptId) (n : Nat), c.refersTo? id k = some dest ∧
      ∀ (source : SceneSource) (index : Nat) (part : Option Int),
        (source.instruction catalog id index part c).operands[k]? =
          some (source.reference catalog (some dest) n) := by
  have hall : ∀ (source : SceneSource) (index : Nat) (part : Option Int),
      ∃ (dest : ScriptId) (n : Nat), c.refersTo? id k = some dest ∧
        c.args[k]?.map Argument.value = some (.number n) ∧
        (source.instruction catalog id index part c).operands[k]? =
          some (source.reference catalog (some dest) n) :=
    fun _ _ _ => operands_getElem?_of_refersAt hform hk
  obtain ⟨dest, n, hdest, hn, -⟩ := hall {} 0 none
  refine ⟨dest, n, hdest, ?_⟩
  intro source index part
  obtain ⟨dest', n', hdest', hn', ho⟩ := hall source index part
  obtain rfl : dest' = dest := Option.some.inj (hdest'.symm.trans hdest)
  obtain rfl : n' = n :=
    Int.ofNat.inj (Value.number.inj (Option.some.inj (hn'.symm.trans hn)))
  exact ho

/-- A reference that leads into another script of the scene belongs to one of the three operations,
and the instruction names the actor of that script where it is not its own. -/
theorem refersInto_of_refersTo? (hform : c.Form) {k : Nat} (hk : c.refersAt k = true)
    {dest : ScriptId} (hdest : c.refersTo? id k = some dest) (hne : id ≠ dest)
    (hlt : dest.actor < source.actors.length) :
    (source.instruction catalog id index part c).RefersInto id dest k := by
  obtain ⟨a, ha, hrefers⟩ := (Option.any_eq_true _ _).mp hk
  unfold Instruction.RefersInto
  rw [instruction_operation]
  cases hform with
  | plain hx _ =>
      rw [Command.refersTo?, refersAway_of_crossReference?_eq_none hx] at hdest
      exact absurd (Option.some.inj hdest) hne
  | @track n hop hargs =>
      obtain rfl : k = 0 := by
        rw [hargs] at ha
        simpa using (List.getElem?_eq_some_iff.mp ha).1
      rw [Command.refersTo?, hop] at hdest
      cases hdest
      have hlife : id = .life id.actor := by
        obtain ⟨actor, kind⟩ := id
        cases kind with
        | life => rfl
        | move => exact absurd rfl hne
      exact .inr ⟨hop, rfl, hlife, rfl⟩
  | @named m n hop hargs =>
      have hactor : c.args[0]? = some ⟨.actor, .number m⟩ := by rw [hargs]; rfl
      have hnamed : c.named? = some m := by
        rw [Command.named?, firstNumber?_of_getElem? hactor]
        rfl
      have hzero : c.refersAt 0 = false := by
        rw [Command.refersAt, hactor]
        rcases hop with hop | hop <;> rw [hop] <;> rfl
      obtain rfl : k = 1 := by
        rw [hargs] at ha
        have hlt : k < 2 := (List.getElem?_eq_some_iff.mp ha).1
        have hne : k ≠ 0 := by
          rintro rfl
          rw [hk] at hzero
          cases hzero
        omega
      have hoperand : ∀ kind, dest = ⟨m, kind⟩ →
          (source.instruction catalog id index part c).operands[0]? =
            some (.actor dest.actor) := by
        rintro kind rfl
        have hbelow : Compile.indexBelow? source.layout.actorCount (m : Int) = some m :=
          if_pos ⟨Int.natCast_nonneg m, hlt⟩
        rw [operands_getElem?_of_not_refersAt hzero, hactor, Option.map_some]
        simp [Compile.operand, Slot.actor, hbelow]
      rcases hop with hop | hop
      · rw [Command.refersTo?, hop, hnamed] at hdest
        cases hdest
        exact .inl ⟨.inl ⟨hop, rfl⟩, hoperand .move rfl, rfl⟩
      · rw [Command.refersTo?, hop, hnamed] at hdest
        cases hdest
        exact .inl ⟨.inr ⟨hop, rfl⟩, hoperand .life rfl, rfl⟩

theorem refersAt_of_refersInto (hform : c.Form) {dest : ScriptId} {k : Nat}
    (h : (source.instruction catalog id index part c).RefersInto id dest k) :
    c.refersAt k = true := by
  unfold Instruction.RefersInto at h
  rw [instruction_operation] at h
  cases hform with
  | plain hx _ =>
      rcases h with ⟨⟨hop, -⟩ | ⟨hop, -⟩, -⟩ | ⟨hop, -⟩ <;> rw [hop] at hx <;> cases hx
  | track hop hargs =>
      rcases h with ⟨⟨hop', -⟩ | ⟨hop', -⟩, -⟩ | ⟨-, -, -, rfl⟩
      · cases hop.symm.trans hop'
      · cases hop.symm.trans hop'
      · rw [Command.refersAt, hargs, hop]
        rfl
  | named hop hargs =>
      rcases h with ⟨-, -, rfl⟩ | ⟨hop', -⟩
      · rw [Command.refersAt, hargs]
        rcases hop with hop | hop <;> rw [hop] <;> rfl
      · rcases hop with hop | hop <;> cases hop.symm.trans hop'

theorem binds_reference (dest : ScriptId) (n : Nat) :
    Operand.Binds n (source.reference catalog (some dest) n) := by
  rw [reference_natural]
  split
  · exact .target _
  · exact .unresolved

end

/-! ### Instructions, programs and scenes -/

section
variable {source other : SceneSource} {changed id : ScriptId}

/-- A reference into a script that is the same in both scenes leads to the same place. -/
theorem DiffersAt.reference (h : source.DiffersAt other changed) (catalog : Catalog)
    {dest : ScriptId} (hdest : dest = changed → source.actors.length ≤ dest.actor) (n : Nat) :
    other.reference catalog (some dest) n = source.reference catalog (some dest) n := by
  have hparsed : other.parsed? catalog dest = source.parsed? catalog dest := by
    by_cases hchanged : dest = changed
    · rw [parsed?_eq_none (hdest hchanged), parsed?_eq_none]
      rw [h.actorCount]
      exact hdest hchanged
    · exact h.parsed? catalog hchanged
  rw [reference_natural, reference_natural, hparsed]

/-- A command of another script than the changed one becomes the same instruction in both scenes,
but for references into the changed script. -/
theorem DiffersAt.instruction (h : source.DiffersAt other changed) (hne : id ≠ changed)
    (catalog : Catalog) (k : Nat) (part : Option Int) {c : Command} (hform : c.Form) :
    Instruction.AgreesBut id changed (source.instruction catalog id k part c)
      (other.instruction catalog id k part c) := by
  have hcondition : (other.instruction catalog id k part c).condition =
      (source.instruction catalog id k part c).condition := by
    rw [instruction_condition, instruction_condition, h.layout]
  refine ⟨?_, by rw [length_operands, length_operands], ?_, ?_⟩
  · rw [Instruction.mk.injEq]
    exact ⟨instruction_opcode.trans instruction_opcode.symm, rfl, rfl, hcondition,
      instruction_test.trans instruction_test.symm, rfl,
      instruction_offset.trans instruction_offset.symm⟩
  · intro slot hslot
    cases hrefers : c.refersAt slot with
    | false =>
        rw [operands_getElem?_of_not_refersAt hrefers, operands_getElem?_of_not_refersAt hrefers,
          h.layout]
    | true =>
        obtain ⟨dest, n, hdest, ho⟩ := operand_of_refersAt catalog id hform hrefers
        rw [ho, ho, h.reference catalog ?_]
        rintro rfl
        by_contra hlt
        exact hslot (refersInto_of_refersTo? hform hrefers hdest hne (Nat.lt_of_not_le hlt))
  · intro slot hslot
    have hrefers := refersAt_of_refersInto hform hslot
    obtain ⟨dest, n, -, ho⟩ := operand_of_refersAt catalog id hform hrefers
    exact ⟨n, _, _, ho _ _ _, binds_reference dest n, ho _ _ _, binds_reference dest n⟩

theorem DiffersAt.program (h : source.DiffersAt other changed) (hne : id ≠ changed)
    {s : ParsedScript} (hs : source.parsed? .standard id = some s) :
    Program.AgreesBut id changed (source.program .standard s) (other.program .standard s) := by
  have hs' : other.parsed? .standard id = some s := (h.parsed? .standard hne).trans hs
  have hid := parsed?_id .standard source hs
  refine ⟨⟨hid, hid⟩, rfl, rfl, ?_⟩
  intro k
  rw [getElem?_instructions .standard source hs, getElem?_instructions .standard other hs']
  cases hc : s.commands[k]? with
  | none => exact .none
  | some c =>
      have hform : c.Form := by
        rw [parsed?_eq, Option.map_eq_some_iff] at hs
        obtain ⟨bytes, -, rfl⟩ := hs
        exact form_of_mem (Array.mem_of_getElem? hc)
      exact .some (h.instruction hne .standard k (s.part k) hform)

theorem state?_compileScene (catalog : Catalog) (source : SceneSource) (id : ScriptId) :
    (compileScene catalog source).state? id =
      (source.parsed? catalog id).map fun s =>
        if s.commands.isEmpty then .terminated else .fresh := by
  obtain ⟨a, kind⟩ := id
  simp only [CompiledScene.state?, getElem?_compileScene_actors, parsed?, Option.map_map]
  congr 1
  funext p
  have hempty : ∀ s : ParsedScript, (source.program catalog s).initialState =
      if s.commands.isEmpty then .terminated else .fresh := by
    intro s
    rw [Program.initialState, Array.isEmpty, size_instructions]
    rfl
  cases kind
  · exact hempty p.life
  · exact hempty p.moves

/-- **Compilation is local to a script.** Take two scenes of the same size, with the standard
catalog, that differ in the bytes of one script only, whatever these are. Every other script is
read alike in both, starts in the same state, and has the same program, except that references into
the changed script may lead elsewhere or nowhere: the second operand of SET_TRACK_OBJ (if it is a
move script) or SET_BEHAVIOUR_OBJ (if it is a life script) where the first one names its actor, and
the operand of SET_TRACK in the life script of the same actor (if it is a move script). -/
theorem compileScene_local (h : source.DiffersAt other changed) (hne : id ≠ changed) :
    other.parsed? .standard id = source.parsed? .standard id ∧
    Option.Rel (Program.AgreesBut id changed) ((compileScene .standard source).program? id)
      ((compileScene .standard other).program? id) ∧
    (compileScene .standard other).state? id = (compileScene .standard source).state? id := by
  have hparsed := h.parsed? .standard hne
  refine ⟨hparsed, ?_, by rw [state?_compileScene, state?_compileScene, hparsed]⟩
  rw [program?_compileScene, program?_compileScene, hparsed]
  cases hs : source.parsed? .standard id with
  | none => exact .none
  | some s => exact .some (h.program hne hs)

/-- The behavior that one actor sends another to is lost when the script of the other is cut short:
the reference that was bound is left unresolved, and the rest of the program is the same. -/
theorem compileScene_local_truncated :
    let source : SceneSource :=
      { actors := [{ life := [0x22, 1, 2, 0, 0x23] }, { life := [0x01, 0x23, 0x01, 0x23] }] }
    let other : SceneSource :=
      { actors := [{ life := [0x22, 1, 2, 0, 0x23] }, { life := [0x22, 0] }] }
    let p := (compileScene .standard source).program? (.life 0)
    let q := (compileScene .standard other).program? (.life 0)
    Option.Rel (Program.AgreesBut (.life 0) (.life 1)) p q ∧
      (p.bind fun p => p.instructions[1]?).map Instruction.operands = some [.actor 1, .target 3] ∧
      (q.bind fun q => q.instructions[1]?).map Instruction.operands =
        some [.actor 1, .unresolved 2] := by
  intro source other p q
  have hdiffers : source.DiffersAt other (.life 1) := by
    refine ⟨rfl, rfl, rfl, ?_⟩
    rintro ⟨_ | _ | a, kind⟩ hne
    · rfl
    · cases kind with
      | life => exact absurd rfl hne
      | move => rfl
    · rfl
  exact ⟨(compileScene_local hdiffers (by decide)).2.1, by decide +kernel, by decide +kernel⟩

end

end SceneSource

end SceneScript
