import SceneScript.Proofs.Instructions

/-! # References between scripts

Some arguments of commands are raw byte offsets: those with the role of an offset lead into the
script itself, the argument of SET_TRACK into the move script of the same actor, the second argument
of SET_TRACK_OBJ and SET_BEHAVIOUR_OBJ into a script of the actor that the first one names
(`Command.refersAt`, `Command.refersTo?`).

* `Command.Form`: commands of the standard catalog keep their references in one of three forms.
* `operands_getElem?_of_refersAt`: an operand is the index that its offset has in the script it leads
  into, if that script is there and has a command at the offset.
* `landsOn_of_indexOf?`: such an index is that of the instruction at the offset, or of the start of
  a behavior before it.
* `resolved_exactly`: both together, for every instruction of a compiled scene. -/

namespace SceneScript

/-! ### Arguments that refer -/

/-- Whether argument `k` of an operation is a raw offset into another script. -/
def Operation.refersAway : Operation → Nat → Bool
  | .setTrack, k => k == 0
  | .setTrackObj, k | .setBehaviourObj, k => k == 1
  | _, _ => false

namespace Command

/-- Whether argument `k` of a command is a raw offset into a script. -/
def refersAt (c : Command) (k : Nat) : Bool :=
  c.args[k]?.any fun a => a.slot.role == .offset || c.opcode.operation.refersAway k

/-- The actor that the first argument of a command names, of this scene or not. -/
def named? (c : Command) : Option Nat := c.firstNumber?.bind Int.toNat?

/-- The script that a reference in argument `k` leads into, for a command of the script `id`. -/
def refersTo? (c : Command) (id : ScriptId) (k : Nat) : Option ScriptId :=
  if c.opcode.operation.refersAway k then
    match c.opcode.operation with
    | .setTrack => some (.move id.actor)
    | .setTrackObj => c.named?.map .move
    | .setBehaviourObj => c.named?.map .life
    | _ => none
  else some id

/-- The forms in which a command keeps its references: offsets into its own script among any other
arguments, or one offset into another script alone, behind the actor it is for where one is named. -/
inductive Form (c : Command) : Prop
  | plain : Link.crossReference? c.opcode.operation = none →
      (∀ a ∈ c.args, a.slot.role = .offset → ∃ n : Nat, a = ⟨a.slot, .number n⟩) → Form c
  | track {n : Nat} : c.opcode.operation = .setTrack → c.args = [⟨.u16, .number n⟩] → Form c
  | named {a n : Nat} :
      c.opcode.operation = .setTrackObj ∨ c.opcode.operation = .setBehaviourObj →
      c.args = [⟨.actor, .number a⟩, ⟨.u16, .number n⟩] → Form c

end Command

theorem refersAway_of_crossReference?_eq_none {o : Operation}
    (h : Link.crossReference? o = none) (k : Nat) : o.refersAway k = false := by
  cases o <;> first | rfl | cases h

/-! ### Forms of the standard catalog -/

/-- Whether an entry's signature gives its commands one of the three forms. -/
def Opcode.refersInForm (d : Opcode) : Bool :=
  match d.operation with
  | .setTrack => d.slots == [.u16]
  | .setTrackObj | .setBehaviourObj => d.slots == [.actor, .u16]
  | _ => d.slots.all fun s => s.role != .offset || s.wire == .uint16

theorem standardLife_refersInForm :
    Catalog.standardLife.toList.all Opcode.refersInForm = true := by
  decide +kernel

theorem standardMoves_refersInForm :
    Catalog.standardMoves.toList.all Opcode.refersInForm = true := by
  decide +kernel

theorem standard_refersInForm {kind : ScriptKind} {code : UInt8} {d : Opcode}
    (h : Catalog.standard.opcode? kind code = some d) : d.refersInForm = true := by
  have hmem := (entryAt?_code h).2
  cases kind with
  | life => exact List.all_eq_true.mp standardLife_refersInForm d (Array.mem_toList_iff.mpr hmem)
  | move => exact List.all_eq_true.mp standardMoves_refersInForm d (Array.mem_toList_iff.mpr hmem)

theorem Argument.Fits.eq_natural {a : Argument} (h : a.Fits)
    (hwire : a.slot.wire = .uint8 ∨ a.slot.wire = .uint16) :
    ∃ n : Nat, a = ⟨a.slot, .number n⟩ := by
  have hnumeric : a.slot.numeric = true := by
    rcases hwire with hw | hw <;> rw [Slot.numeric, hw] <;> rfl
  obtain ⟨n, hn⟩ := h.eq_number hnumeric
  have hholds : a.slot.wire.Holds n := by
    rw [hn] at h
    exact h
  have hnonneg : 0 ≤ n := by
    rcases hwire with hw | hw <;> rw [hw] at hholds <;> exact hholds.1
  exact ⟨n.toNat, by rw [Int.toNat_of_nonneg hnonneg]; exact hn⟩

/-- What holds of all entries of a table holds of the entry of a command. -/
theorem Command.Conforms.of_all {catalog : Catalog} {kind : ScriptKind}
    {enclosing : Option Predicate} {c : Command} (h : c.Conforms catalog kind enclosing)
    {p : Opcode → Bool} (hall : (catalog.opcodes kind).toList.all p = true) : p c.opcode = true :=
  List.all_eq_true.mp hall c.opcode (Array.mem_toList_iff.mpr (entryAt?_code h.opcode).2)

/-- Where the first slot of a signature holds an unsigned number, a command has one. -/
theorem Command.Conforms.firstNumber {catalog : Catalog} {kind : ScriptKind}
    {enclosing : Option Predicate} {c : Command} (h : c.Conforms catalog kind enclosing) {slot : Slot}
    (hslot : c.opcode.slots.head? = some slot)
    (hwire : slot.wire = .uint8 ∨ slot.wire = .uint16) :
    ∃ n : Nat, n < 65536 ∧ c.firstNumber? = some (n : Int) := by
  obtain ⟨hslots, hfits⟩ := h.args
  obtain ⟨rest, hrest⟩ := List.head?_eq_some_iff.mp hslot
  rw [hrest, List.cons_append] at hslots
  obtain ⟨a, args, hargs, rfl, -⟩ := List.map_eq_cons_iff.mp hslots
  have ha : a.Fits := hfits a (by simp [hargs])
  obtain ⟨n, hn⟩ := ha.eq_natural hwire
  refine ⟨n, ?_, ?_⟩
  · rw [hn] at ha
    have hholds : a.slot.wire.Holds n := ha
    rcases hwire with hw | hw <;> rw [hw] at hholds <;>
      exact Nat.lt_of_lt_of_le (Int.ofNat_lt.mp hholds.2) (by decide)
  · rw [firstNumber?, jump?, hargs, List.head?_cons, Option.map_some, hn]
    rfl

theorem Command.Conforms.form {kind : ScriptKind} {enclosing : Option Predicate} {c : Command}
    (h : c.Conforms .standard kind enclosing) : c.Form := by
  obtain ⟨hslots, hfits⟩ := h.args
  have hform := standard_refersInForm h.opcode
  have hnamed : c.opcode.operation = .setTrackObj ∨ c.opcode.operation = .setBehaviourObj →
      c.opcode.slots = [.actor, .u16] → c.Form := by
    intro hop hsig
    have hextra : extraSlot? c.opcode.operation (c.args.take c.opcode.slots.length) = none := by
      rcases hop with hop | hop <;> rw [hop] <;> rfl
    rw [hextra, hsig] at hslots
    obtain ⟨a, rest, hargs, ha, hrest⟩ := List.map_eq_cons_iff.mp hslots
    obtain ⟨b, rest, rfl, hb, hnil⟩ := List.map_eq_cons_iff.mp hrest
    obtain rfl := List.map_eq_nil_iff.mp hnil
    rw [hargs] at hfits
    obtain ⟨m, hm⟩ := (hfits a (by simp)).eq_natural (.inl (by rw [ha]; rfl))
    obtain ⟨n, hn⟩ := (hfits b (by simp)).eq_natural (.inr (by rw [hb]; rfl))
    rw [hm, hn, ha, hb] at hargs
    exact .named hop hargs
  unfold Opcode.refersInForm at hform
  split at hform
  · next hop =>
      rw [hop, eq_of_beq hform] at hslots
      obtain ⟨a, rest, hargs, ha, hrest⟩ := List.map_eq_cons_iff.mp hslots
      obtain rfl := List.map_eq_nil_iff.mp hrest
      obtain ⟨n, hn⟩ := (hfits a (by simp [hargs])).eq_natural (.inr (by rw [ha]; rfl))
      rw [hn, ha] at hargs
      exact .track hop hargs
  · next hop => exact hnamed (.inl hop) (eq_of_beq hform)
  · next hop => exact hnamed (.inr hop) (eq_of_beq hform)
  · next h₁ h₂ h₃ =>
      refine .plain ?_ ?_
      · unfold Link.crossReference?
        split <;> simp_all
      · intro a ha hrole
        have hslot : a.slot ∈ c.opcode.slots := by
          have hmem := List.mem_map_of_mem (f := Argument.slot) ha
          rw [hslots, List.mem_append] at hmem
          rcases hmem with hmem | hmem
          · exact hmem
          · exact absurd hrole (extraSlot?_role_ne (Option.mem_toList.mp hmem))
        have hwire := List.all_eq_true.mp hform a.slot hslot
        simp only [hrole, bne_self_eq_false, Bool.false_or, beq_iff_eq] at hwire
        exact (hfits a ha).eq_natural (.inr hwire)

theorem form_of_mem {scene : Nat} {id : ScriptId} {bytes : List UInt8} {c : Command}
    (h : c ∈ (parseScript .standard scene id bytes).1.commands) : c.Form := by
  rcases parseScript_commands_conform h with hadded | ⟨enclosing, hconf⟩
  · have hplain : ∀ o, (Catalog.builtinMarker o).operation = o →
        Link.crossReference? o = none →
        Link.crossReference? (Catalog.standard.marker o).operation = none := by
      intro o ho hx
      rw [Catalog.standard.marker_operation ho, hx]
    cases hadded with
    | endIf => exact .plain (hplain .endIf rfl rfl) (by simp [Command.implicit])
    | endSwitch => exact .plain (hplain .endSwitch rfl rfl) (by simp [Command.implicit])
    | behaviour n =>
        exact .plain (hplain .behaviour rfl rfl) (by simp [Command.implicit, Slot.label])
  · exact hconf.form

/-! ### Operands that refer -/

namespace SceneSource

variable {catalog : Catalog} {source : SceneSource} {id : ScriptId} {index : Nat}
  {part : Option Int} {c : Command}

theorem parsed?_eq_none {dest : ScriptId} (h : source.actors.length ≤ dest.actor) :
    source.parsed? catalog dest = none := by
  rw [parsed?, Array.getElem?_eq_none (by rwa [size_parsed]), Option.map_none]

/-- A reference into a script of an actor outside the scene leads nowhere, like any other to a script
that is not there. -/
theorem reference_indexBelow? (a : Nat) (kind : ScriptKind) (n : Int) :
    source.reference catalog
        ((Compile.indexBelow? source.actors.length (a : Int)).map fun b => ⟨b, kind⟩) n =
      source.reference catalog (some ⟨a, kind⟩) n := by
  rcases Nat.lt_or_ge a source.actors.length with hlt | hge
  · have hbelow : Compile.indexBelow? source.actors.length (a : Int) = some a := by
      simp [Compile.indexBelow?, hlt]
    rw [hbelow, Option.map_some]
  · have hbelow : Compile.indexBelow? source.actors.length (a : Int) = none := by
      simp [Compile.indexBelow?, hge]
    have hnone : source.parsed? catalog ⟨a, kind⟩ = none := parsed?_eq_none hge
    rw [hbelow, Option.map_none, reference, reference, Option.bind_some, hnone]
    simp [Link.lookup]

/-- The operand of a reference is what its number leads to in the script it is for. -/
theorem operands_getElem?_of_refersAt (hform : c.Form) {k : Nat} (hk : c.refersAt k = true) :
    ∃ (dest : ScriptId) (n : Nat), c.refersTo? id k = some dest ∧
      c.args[k]?.map Argument.value = some (.number n) ∧
      (source.instruction catalog id index part c).operands[k]? =
        some (source.reference catalog (some dest) n) := by
  obtain ⟨a, ha, hrefers⟩ := (Option.any_eq_true _ _).mp hk
  cases hform with
  | plain hx hoffsets =>
      have haway := refersAway_of_crossReference?_eq_none hx k
      have hrole : a.slot.role = .offset := by simpa [haway] using hrefers
      obtain ⟨n, hn⟩ := hoffsets a (List.mem_of_getElem? ha) hrole
      rw [hn] at ha
      refine ⟨id, n, ?_, by rw [ha]; rfl, operands_getElem?_own ha hrole hx⟩
      rw [Command.refersTo?, haway]
      rfl
  | @track n hop hargs =>
      obtain rfl : k = 0 := by
        rw [hargs] at ha
        have hlt := (List.getElem?_eq_some_iff.mp ha).1
        simpa using hlt
      have hx : Link.crossReference? c.opcode.operation = some ⟨0, .move, false⟩ := by rw [hop]; rfl
      have harg : c.args[0]? = some ⟨.u16, .number n⟩ := by rw [hargs]; rfl
      refine ⟨.move id.actor, n, ?_, by rw [harg]; rfl, ?_⟩
      · rw [Command.refersTo?, hop]
        rfl
      · rw [operands_getElem?_cross hx harg (by decide) (by simp), Command.destination?, hx]
        rfl
  | @named m n hop hargs =>
      obtain rfl : k = 1 := by
        rw [hargs] at ha
        have hlt : k < 2 := (List.getElem?_eq_some_iff.mp ha).1
        have hne : k ≠ 0 := by
          rintro rfl
          cases ha
          rcases hop with hop | hop <;> rw [hop] at hrefers <;> cases hrefers
        omega
      have hactor : c.args[0]? = some ⟨.actor, .number m⟩ := by rw [hargs]; rfl
      have harg : c.args[1]? = some ⟨.u16, .number n⟩ := by rw [hargs]; rfl
      have hfirst := firstNumber?_of_getElem? hactor
      have hcross : ∀ kind, Link.crossReference? c.opcode.operation = some ⟨1, kind, true⟩ →
          (source.instruction catalog id index part c).operands[1]? =
            some (source.reference catalog (some ⟨m, kind⟩) n) := by
        intro kind hx
        have hbound : (source.instruction catalog id index part c).operands[1]? = _ :=
          operands_getElem?_cross hx harg (by decide) fun _ => ⟨.actor, m, by decide, hactor⟩
        rw [hbound, Command.destination?, hx, hfirst]
        exact congrArg some (reference_indexBelow? m kind n)
      have hnamed : c.named? = some m := by rw [Command.named?, hfirst]; rfl
      rcases hop with hop | hop
      · refine ⟨.move m, n, ?_, by rw [harg]; rfl, hcross .move (by rw [hop]; rfl)⟩
        rw [Command.refersTo?, hop, hnamed]
        rfl
      · refine ⟨.life m, n, ?_, by rw [harg]; rfl, hcross .life (by rw [hop]; rfl)⟩
        rw [Command.refersTo?, hop, hnamed]
        rfl

/-- A reference is a target exactly where the script it is for has a command at its offset, and is
left unresolved otherwise. -/
theorem reference_natural (dest : ScriptId) (n : Nat) :
    source.reference catalog (some dest) n =
      match (source.parsed? catalog dest).bind fun s => s.indexOf? n with
      | some t => .target t
      | none => .unresolved n := by
  have hlookup : Link.lookup (source.parsed? catalog dest) (n : Int) =
      (source.parsed? catalog dest).bind fun s => s.indexOf? n := by
    rw [Link.lookup, if_pos (Int.natCast_nonneg n), Int.toNat_natCast]
  cases h : (source.parsed? catalog dest).bind fun s => s.indexOf? n with
  | none => simp only [reference, Option.bind_some, hlookup, h]
  | some t => simp only [reference, Option.bind_some, hlookup, h]

end SceneSource

/-! ### Where references land -/

def CompiledScene.program? (s : CompiledScene) (id : ScriptId) : Option Program :=
  s.actors[id.actor]?.map fun a => a.programs.program id.kind

/-- Where a jump to byte `n` lands in the program of a script that was cut short at `stop`, or was
not: on the instruction of that byte, or on an added start of a behavior. The latter is followed by
the instruction, or is the last one where the script was cut short at that byte. -/
def Program.LandsOn (p : Program) (stop : Option Nat) (n t : Nat) : Prop :=
  ∃ i, p.instructions[t]? = some i ∧
    (i.offset = some n ∨
      i.offset = none ∧ i.operation = .behaviour ∧
        ((∃ j, p.instructions[t + 1]? = some j ∧ j.offset = some n) ∨
          t + 1 = p.instructions.size ∧ stop = some n))

namespace SceneSource

variable {source : SceneSource} {id : ScriptId}

theorem program?_compileScene (catalog : Catalog) (source : SceneSource) (id : ScriptId) :
    (compileScene catalog source).program? id =
      (source.parsed? catalog id).map (source.program catalog) := by
  obtain ⟨a, kind⟩ := id
  simp only [CompiledScene.program?, getElem?_compileScene_actors, parsed?, Option.map_map]
  cases kind <;> rfl

theorem landsOn_of_indexOf? {catalog : Catalog} {s : ParsedScript}
    (hs : source.parsed? catalog id = some s) {n t : Nat} (h : s.indexOf? n = some t) :
    (source.program catalog s).LandsOn s.truncatedAt n t := by
  have hleads : OffsetLeads catalog s.commands s.truncatedAt n t := by
    rw [parsed?_eq, Option.map_eq_some_iff] at hs
    obtain ⟨bytes, -, rfl⟩ := hs
    exact leads_of_indexOf? h
  have hget : ∀ k c, s.commands[k]? = some c →
      (source.program catalog s).instructions[k]? =
        some (source.instruction catalog id k (s.part k) c) := by
    intro k c hc
    rw [getElem?_instructions catalog source hs, hc, Option.map_some]
  rcases hleads with ⟨c, hc, ho⟩ | ⟨m, hm, hnext⟩
  · exact ⟨_, hget t c hc, .inl (instruction_offset.trans ho)⟩
  · refine ⟨_, hget t _ hm, .inr ⟨instruction_offset, ?_, ?_⟩⟩
    · exact instruction_operation.trans (catalog.marker_operation rfl)
    · rcases hnext with ⟨c, hc, ho⟩ | ⟨hsize, hstop⟩
      · exact .inl ⟨_, hget _ c hc, instruction_offset.trans ho⟩
      · exact .inr ⟨by rw [size_instructions, hsize], hstop⟩

/-- **References are resolved exactly.** Every instruction of a scene compiled with the standard
catalog is a command of the parsed script, and each of its operands that is a reference, with the
number `n`, is the target `t` exactly when the script it leads into is in the scene and the command
at byte `n` of that script has the index `t`; otherwise it is left unresolved. A target is inside
the program it leads into, on the instruction of byte `n` or the start of a behavior before it, and
never on an added end of a block. -/
theorem resolved_exactly {p : Program} {k : Nat} {i : Instruction}
    (hp : (compileScene .standard source).program? id = some p)
    (hi : p.instructions[k]? = some i) :
    ∃ s c, source.parsed? .standard id = some s ∧ s.commands[k]? = some c ∧
      i.opcode = c.opcode ∧ i.offset = c.offset ∧
      ∀ slot, c.refersAt slot = true → ∃ (dest : ScriptId) (n : Nat),
        c.refersTo? id slot = some dest ∧ c.args[slot]?.map Argument.value = some (.number n) ∧
        (∀ t, i.operands[slot]? = some (.target t) ↔
          ∃ d, source.parsed? .standard dest = some d ∧ d.indexOf? n = some t) ∧
        (i.operands[slot]? = some (.unresolved n) ↔
          ¬ ∃ d t, source.parsed? .standard dest = some d ∧ d.indexOf? n = some t) ∧
        ∀ t, i.operands[slot]? = some (.target t) → ∃ d q,
          source.parsed? .standard dest = some d ∧
          (compileScene .standard source).program? dest = some q ∧ t < q.instructions.size ∧
          q.LandsOn d.truncatedAt n t ∧
          ∀ j, q.instructions[t]? = some j → j.offset = none →
            j.operation ≠ .endIf ∧ j.operation ≠ .endSwitch := by
  rw [program?_compileScene, Option.map_eq_some_iff] at hp
  obtain ⟨s, hs, rfl⟩ := hp
  rw [getElem?_instructions .standard source hs, Option.map_eq_some_iff] at hi
  obtain ⟨c, hc, rfl⟩ := hi
  refine ⟨s, c, hs, hc, instruction_opcode, instruction_offset, ?_⟩
  intro slot hslot
  have hform : c.Form := by
    rw [parsed?_eq, Option.map_eq_some_iff] at hs
    obtain ⟨bytes, -, rfl⟩ := hs
    exact form_of_mem (Array.mem_of_getElem? hc)
  obtain ⟨dest, n, hdest, hn, hoperand⟩ := operands_getElem?_of_refersAt hform hslot
  have htarget : ∀ t, (source.instruction .standard id k (s.part k) c).operands[slot]? =
      some (.target t) ↔ ∃ d, source.parsed? .standard dest = some d ∧ d.indexOf? n = some t := by
    intro t
    rw [hoperand, reference_natural, ← Option.bind_eq_some_iff]
    cases (source.parsed? .standard dest).bind fun d => d.indexOf? n <;> simp
  refine ⟨dest, n, hdest, hn, htarget, ?_, ?_⟩
  · have hnone : (¬ ∃ d t, source.parsed? .standard dest = some d ∧ d.indexOf? n = some t) ↔
        ((source.parsed? .standard dest).bind fun d => d.indexOf? n) = none := by
      cases source.parsed? .standard dest <;> simp [Option.eq_none_iff_forall_ne_some]
    rw [hnone, hoperand, reference_natural]
    cases (source.parsed? .standard dest).bind fun d => d.indexOf? n <;> simp
  · intro t ht
    obtain ⟨d, hd, hindex⟩ := (htarget t).mp ht
    have hlands := landsOn_of_indexOf? hd hindex
    obtain ⟨j, hj, hat⟩ := hlands
    refine ⟨d, _, hd, by rw [program?_compileScene, hd, Option.map_some],
      (Array.getElem?_eq_some_iff.mp hj).1, ⟨j, hj, hat⟩, ?_⟩
    intro j' hj' hoffset
    rw [hj] at hj'
    cases hj'
    rcases hat with hat | ⟨-, hop, -⟩
    · rw [hoffset] at hat
      cases hat
    · rw [hop]
      exact ⟨by decide, by decide⟩

/-- An actor that sends another to the behavior at byte 2 of its script: the jump lands on the added
start of that behavior. -/
theorem resolved_exactly_behavior :
    let source : SceneSource :=
      { actors := [{ life := [0x22, 1, 2, 0, 0x23] }, { life := [0x01, 0x23, 0x01, 0x23] }] }
    ∃ p i q, (compileScene .standard source).program? (.life 0) = some p ∧
      p.instructions[1]? = some i ∧ i.operands[1]? = some (.target 3) ∧
      (compileScene .standard source).program? (.life 1) = some q ∧ q.LandsOn none 2 3 := by
  intro source
  have hsome : (((compileScene .standard source).program? (.life 0)).bind fun p =>
      p.instructions[1]?).isSome = true := by decide +kernel
  obtain ⟨i, hbind⟩ := Option.isSome_iff_exists.mp hsome
  obtain ⟨p, hp, hi⟩ := Option.bind_eq_some_iff.mp hbind
  obtain ⟨s, c, hs, hc, -, -, hslots⟩ := resolved_exactly hp hi
  have hcommand : (((source.parsed? .standard (.life 0)).bind fun s => s.commands[1]?).map fun c =>
      (c.refersAt 1, c.refersTo? (.life 0) 1, c.args[1]?.map Argument.value)) =
        some (true, some (.life 1), some (.number 2)) := by decide +kernel
  have hdestination : ((source.parsed? .standard (.life 1)).map fun d =>
      (d.indexOf? 2, d.truncatedAt)) = some (some 3, none) := by decide +kernel
  rw [hs, Option.bind_some, hc, Option.map_some, Option.some.injEq, Prod.mk.injEq,
    Prod.mk.injEq] at hcommand
  obtain ⟨d, hd, hentry⟩ := Option.map_eq_some_iff.mp hdestination
  rw [Prod.mk.injEq] at hentry
  obtain ⟨dest, n, hdest, hn, htarget, -, hlands⟩ := hslots 1 hcommand.1
  obtain rfl : dest = .life 1 := Option.some.inj (hdest.symm.trans hcommand.2.1)
  obtain rfl : n = 2 := by
    have hvalue : (n : Int) = 2 := Value.number.inj (Option.some.inj (hn.symm.trans hcommand.2.2))
    omega
  have ht := (htarget 3).mpr ⟨d, hd, hentry.1⟩
  obtain ⟨d', q, hd', hq, -, hland, -⟩ := hlands 3 ht
  rw [hd] at hd'
  cases hd'
  rw [hentry.2] at hland
  exact ⟨p, i, q, hp, hi, ht, hq, hland⟩

end SceneSource

end SceneScript
