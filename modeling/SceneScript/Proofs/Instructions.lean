import SceneScript.Catalog.Standard
import SceneScript.Proofs.Compilation

/-! # Instructions of compiled scenes

What the engine demands of an instruction is decided by its operation: a jump target in some
operand, an actor in the first one, a condition, a comparison, a number, a scratch record.
`Opcode.wellLaid` is the check of a catalog entry that the signature provides what the operation
demands; all standard entries pass it. `Instruction.Sound` is what follows for the instructions of
a scene compiled with the standard catalog (`sound_of_getElem?`): every demanded operand is there,
as a target inside the script it leads into, as an actor of the scene, or unresolved.

An operand is left unresolved only where a diagnostic says so (`resolved_of_findings_eq_nil`). -/

namespace SceneScript

/-! ### What operations demand -/

namespace Operation

/-- The operand in which an operation keeps a jump target. -/
def targetSlot? : Operation → Option Nat
  | .offset | .goto | .ifThen | .andIf | .orIf | .swif | .oneIf | .elseThen | .caseArm | .orCaseArm
  | .breakOff | .setBehaviour | .setTrack => some 0
  | .setBehaviourObj | .setTrackObj => some 1
  | _ => none

/-- Whether the first operand of an operation names an actor. -/
def namesActor : Operation → Bool
  | .setBehaviourObj | .saveBehaviourObj | .restoreBehaviourObj | .setTrackObj
  | .stopCurrentTrackObj | .restoreLastTrackObj => true
  | _ => false

/-- Whether an operation evaluates a condition. -/
def asksCondition : Operation → Bool
  | .ifThen | .andIf | .orIf | .swif | .oneIf | .switch => true
  | _ => false

/-- Whether an operation compares a value with a literal. -/
def compares : Operation → Bool
  | .ifThen | .andIf | .orIf | .swif | .oneIf | .caseArm | .orCaseArm => true
  | _ => false

/-- Whether the first operand of an operation is a number it uses. -/
def counts : Operation → Bool
  | .track | .waitSeconds | .waitDeciseconds => true
  | _ => false

/-- Whether an operation keeps something in the scratch record of its instruction. -/
def remembers : Operation → Bool
  | .swif | .oneIf | .waitSeconds | .waitDeciseconds => true
  | _ => false

/-- Whether an operation chooses, keeps or leaves the behavior of its own script. Behaviors are of
life scripts. -/
def leadsBehavior : Operation → Bool
  | .setBehaviour | .endBehaviour | .ret | .saveBehaviour | .restoreBehaviour => true
  | _ => false

end Operation

/-! ### What catalog entries provide -/

/-- Whether a slot holds numbers. -/
def Slot.numeric (s : Slot) : Bool := s.wire != .text

/-- Whether a slot provides the jump target of an operation: an offset into the script itself, or
the raw offset of a reference into another script. -/
def Slot.providesTarget (operation : Operation) (k : Nat) (s : Slot) : Bool :=
  s.numeric && (match Link.crossReference? operation with
    | none => s.role == .offset
    | some r => r.slot == k && r.named == operation.namesActor && s.role != .offset)

/-- Whether an entry's signature provides what its operation demands, in scripts of a kind. -/
def Opcode.wellLaid (kind : ScriptKind) (d : Opcode) : Bool :=
  d.operation.targetSlot?.all (fun k => d.slots[k]?.any (Slot.providesTarget d.operation k)) &&
  (!d.operation.namesActor || d.slots[0]?.any fun s => s.numeric && s.role == .actor) &&
  (!d.operation.asksCondition || d.hasCondition) &&
  (!d.operation.compares || d.hasOperator) &&
  (!d.operation.counts || d.slots[0]?.any fun s =>
    s.numeric && (s.role == .value || s.role == .label)) &&
  (!d.operation.remembers || d.needsCallState) &&
  (!d.operation.leadsBehavior || kind == .life)

/-- Whether an entry of a predicate provides what evaluating it demands: a parameter that is no
offset, and an actor where it asks for the track of one. -/
def Predicate.wellLaid (p : Predicate) : Bool :=
  p.param.all (fun s => s.role != .offset) &&
  (p.source != .actorTrack || p.param.any fun s => s.numeric && s.role == .actor)

namespace Opcode

variable {kind : ScriptKind} {d : Opcode}

/-- The parts of the check of an entry. -/
theorem wellLaid_iff : d.wellLaid kind = true ↔
    (d.operation.targetSlot?.all fun k =>
      d.slots[k]?.any (Slot.providesTarget d.operation k)) = true ∧
    (d.operation.namesActor = true →
      (d.slots[0]?.any fun s => s.numeric && s.role == .actor) = true) ∧
    (d.operation.asksCondition = true → d.hasCondition = true) ∧
    (d.operation.compares = true → d.hasOperator = true) ∧
    (d.operation.counts = true → (d.slots[0]?.any fun s =>
      s.numeric && (s.role == .value || s.role == .label)) = true) ∧
    (d.operation.remembers = true → d.needsCallState = true) ∧
    (d.operation.leadsBehavior = true → kind = .life) := by
  have himp : ∀ a b : Bool, (!a || b) = true ↔ (a = true → b = true) := by decide
  simp only [wellLaid, Bool.and_eq_true, himp, and_assoc, beq_iff_eq]

theorem slot_of_targetSlot? (h : d.wellLaid kind = true) {k : Nat}
    (hk : d.operation.targetSlot? = some k) :
    ∃ s, d.slots[k]? = some s ∧ s.numeric = true ∧
      (Link.crossReference? d.operation = none ∧ s.role = .offset ∨
        ∃ r, Link.crossReference? d.operation = some r ∧ r.slot = k ∧
          r.named = d.operation.namesActor ∧ s.role ≠ .offset) := by
  have ht := (wellLaid_iff.mp h).1
  rw [hk, Option.all_some, Option.any_eq_true] at ht
  obtain ⟨s, hs, hp⟩ := ht
  refine ⟨s, hs, ?_⟩
  unfold Slot.providesTarget at hp
  cases hx : Link.crossReference? d.operation with
  | none => simpa [hx] using hp
  | some r =>
      simp only [hx, Bool.and_eq_true, beq_iff_eq, bne_iff_ne] at hp
      exact ⟨hp.1, .inr ⟨r, rfl, hp.2.1.1, hp.2.1.2, hp.2.2⟩⟩

theorem slot_of_namesActor (h : d.wellLaid kind = true) (hn : d.operation.namesActor = true) :
    ∃ s, d.slots[0]? = some s ∧ s.numeric = true ∧ s.role = .actor := by
  have hs := (wellLaid_iff.mp h).2.1 hn
  obtain ⟨s, hs, hp⟩ := Option.any_eq_true _ _ |>.mp hs
  exact ⟨s, hs, by simpa using hp⟩

theorem slot_of_counts (h : d.wellLaid kind = true) (hn : d.operation.counts = true) :
    ∃ s, d.slots[0]? = some s ∧ s.numeric = true ∧ (s.role = .value ∨ s.role = .label) := by
  have hs := (wellLaid_iff.mp h).2.2.2.2.1 hn
  obtain ⟨s, hs, hp⟩ := Option.any_eq_true _ _ |>.mp hs
  exact ⟨s, hs, by simpa using hp⟩

end Opcode

theorem standardLife_wellLaid : Catalog.standardLife.toList.all (Opcode.wellLaid .life) = true := by
  decide +kernel

theorem standardMoves_wellLaid :
    Catalog.standardMoves.toList.all (Opcode.wellLaid .move) = true := by
  decide +kernel

theorem standardConditions_wellLaid :
    Catalog.standardConditions.toList.all Predicate.wellLaid = true := by
  decide +kernel

/-- Every opcode of the standard catalog is well laid. -/
theorem standard_opcode_wellLaid {kind : ScriptKind} {code : UInt8} {d : Opcode}
    (h : Catalog.standard.opcode? kind code = some d) : d.wellLaid kind = true := by
  have hmem := (entryAt?_code h).2
  cases kind with
  | life => exact List.all_eq_true.mp standardLife_wellLaid d (Array.mem_toList_iff.mpr hmem)
  | move => exact List.all_eq_true.mp standardMoves_wellLaid d (Array.mem_toList_iff.mpr hmem)

theorem standard_predicate_wellLaid {code : UInt8} {p : Predicate}
    (h : Catalog.standard.predicate? code = some p) : p.wellLaid = true :=
  List.all_eq_true.mp standardConditions_wellLaid p (Array.mem_toList_iff.mpr (entryAt?_code h).2)

/-! ### Linked arguments -/

namespace Link

/-- An argument linked as an offset into its own script, if it is one. -/
def ownArgument (own : Option ParsedScript) (name : String) (a : Argument) :
    Argument × List LinkIssue :=
  if a.slot.role = .offset then resolve own name a else (a, [])

theorem resolveOffsets_eq (own : Option ParsedScript) (name : String) (args : List Argument) :
    resolveOffsets own name args =
      (args.map fun a => (ownArgument own name a).1, args.flatMap fun a => (ownArgument own name a).2) := by
  induction args with
  | nil => rfl
  | cons a args ih =>
      rw [resolveOffsets, ih]
      rfl

theorem ownArgument_of_role_ne {own : Option ParsedScript} {name : String} {a : Argument}
    (h : a.slot.role ≠ .offset) : ownArgument own name a = (a, []) := by
  rw [ownArgument, if_neg h]

/-- A command without references into other scripts has its own offsets resolved. -/
theorem command_of_crossReference?_eq_none {actors : Array ParsedActor} {id : ScriptId}
    {c : Command} (h : crossReference? c.opcode.operation = none) :
    command actors id c =
      ({ c with args := c.args.map fun a =>
          (ownArgument (actors[id.actor]?.map fun p => p.script id.kind) c.name a).1 },
        c.args.flatMap fun a =>
          (ownArgument (actors[id.actor]?.map fun p => p.script id.kind) c.name a).2) := by
  unfold command
  simp only [resolveOffsets_eq, h]

/-- Resolving a raw number gives a target of the destination, or leaves the number unresolved and
says so. -/
theorem resolve_number (destination : Option ParsedScript) (name : String) (slot : Slot) (n : Int) :
    (∃ t, lookup destination n = some t ∧
      resolve destination name ⟨slot, .number n⟩ = (⟨slot, .target t⟩, [])) ∨
    lookup destination n = none ∧
      resolve destination name ⟨slot, .number n⟩ =
        (⟨slot, .unresolved n⟩, [.unresolvedJump name n]) := by
  unfold resolve
  cases h : lookup destination n with
  | none => exact .inr ⟨rfl, by simp only [h]⟩
  | some t => exact .inl ⟨t, rfl, by simp only [h]⟩

/-- The actor whose script a reference leads into, and what is said about it. -/
def crossActor (actors : Array ParsedActor) (own : Nat) (r : CrossReference) (c : Command) :
    Option Nat × List LinkIssue :=
  if r.named then targetActor actors c else (some own, [])

/-- A reference into another script is resolved there, or given up where there is no such actor. -/
theorem resolveCross_eq {actors : Array ParsedActor} {own : Nat} {r : CrossReference} {c : Command}
    {a : Argument} (ha : c.args[r.slot]? = some a) :
    resolveCross actors own r c =
      match (crossActor actors own r c).1 with
      | some x =>
        let resolved := resolve (actors[x]?.map fun p => p.script r.kind) c.name a
        ({ c with args := c.args.set r.slot resolved.1 },
          (crossActor actors own r c).2 ++ resolved.2)
      | none =>
        ({ c with args := c.args.set r.slot (abandon a) }, (crossActor actors own r c).2) := by
  unfold resolveCross crossActor
  rw [ha]
  cases hx : (if r.named = true then targetActor actors c else (some own, [])) with
  | mk actor found => cases actor <;> rfl

theorem crossActor_named {actors : Array ParsedActor} {own : Nat} {r : CrossReference}
    {c : Command} {m : Int} (hr : r.named = true) (hm : c.firstNumber? = some m) :
    (crossActor actors own r c).1 = Compile.indexBelow? actors.size m := by
  unfold crossActor targetActor Compile.indexBelow?
  simp only [hr, if_true, hm]
  split <;> simp

theorem crossActor_found {actors : Array ParsedActor} {own : Nat} {r : CrossReference}
    {c : Command} (h : (crossActor actors own r c).1 = none) : (crossActor actors own r c).2 ≠ [] := by
  unfold crossActor targetActor at h ⊢
  cases hr : r.named with
  | false => simp [hr] at h
  | true =>
      simp only [hr, if_true] at h ⊢
      split
      · simp
      · next hm =>
          simp only [hm] at h
          split
          · next hn => simp [hn] at h
          · simp

theorem crossActor_own {actors : Array ParsedActor} {own : Nat} {r : CrossReference}
    {c : Command} (hr : r.named = false) : crossActor actors own r c = (some own, []) := by
  unfold crossActor
  simp [hr]

end Link

/-! ### Numeric arguments -/

theorem Argument.Fits.eq_number {a : Argument} (h : a.Fits) (hw : a.slot.numeric = true) :
    ∃ n, a = ⟨a.slot, .number n⟩ := by
  obtain ⟨slot, value⟩ := a
  simp only [Argument.Fits, Slot.numeric, bne_iff_ne, ne_eq] at h hw
  cases value with
  | number n => exact ⟨n, rfl⟩
  | text s => exact absurd h.1 hw
  | target i => exact h.elim
  | unresolved n => exact h.elim

/-- The argument at a place of the signature. -/
theorem ArgumentsConform.getElem? {d : Opcode} {args : List Argument} (h : ArgumentsConform d args)
    {k : Nat} {s : Slot} (hs : d.slots[k]? = some s) :
    ∃ a, args[k]? = some a ∧ a.slot = s ∧ a.Fits := by
  have hk : (args.map Argument.slot)[k]? = some s := by
    rw [h.1, List.getElem?_append_left (List.getElem?_eq_some_iff.mp hs).1, hs]
  rw [List.getElem?_map, Option.map_eq_some_iff] at hk
  obtain ⟨a, ha, rfl⟩ := hk
  exact ⟨a, ha, rfl, h.2 a (List.mem_of_getElem? ha)⟩

/-- The number at a numeric place of the signature. -/
theorem ArgumentsConform.number {d : Opcode} {args : List Argument} (h : ArgumentsConform d args)
    {k : Nat} {s : Slot} (hs : d.slots[k]? = some s) (hw : s.numeric = true) :
    ∃ n, args[k]? = some ⟨s, .number n⟩ := by
  obtain ⟨a, ha, rfl, hf⟩ := h.getElem? hs
  obtain ⟨n, hn⟩ := hf.eq_number hw
  exact ⟨n, by rw [ha, hn]⟩

theorem directionSlot?_role_ne {mode : Int} {s : Slot} (h : directionSlot? mode = some s) :
    s.role ≠ .offset := by
  unfold directionSlot? at h
  split at h
  · obtain rfl := Option.some.inj h
    decide
  · split at h
    · obtain rfl := Option.some.inj h
      decide
    · cases h

theorem extraSlot?_role_ne {o : Operation} {args : List Argument} {s : Slot}
    (h : extraSlot? o args = some s) : s.role ≠ .offset := by
  unfold extraSlot? at h
  split at h
  · obtain ⟨mode, -, hmode⟩ := Option.bind_eq_some_iff.mp h
    exact directionSlot?_role_ne hmode
  · obtain ⟨mode, -, hmode⟩ := Option.bind_eq_some_iff.mp h
    exact directionSlot?_role_ne hmode
  · cases h

/-! ### Sound instructions -/

/-- Where the jump target of an instruction leads: into its own script, or into the script that a
reference of its operation names. -/
def Instruction.destination? (id : ScriptId) (i : Instruction) : Option ScriptId :=
  match Link.crossReference? i.operation with
  | none => some id
  | some r =>
    if r.named then (i.operands[0]?.bind Operand.actor?).map fun a => ⟨a, r.kind⟩
    else some ⟨id.actor, r.kind⟩

/-- The script that a reference of a command leads into, in a scene of `count` actors: its own, or
one of the actor that the command names. -/
def Command.destination? (count : Nat) (id : ScriptId) (c : Command) :
    Option ScriptId :=
  match Link.crossReference? c.opcode.operation with
  | none => some id
  | some r =>
    if r.named then (c.firstNumber?.bind (Compile.indexBelow? count)).map fun a => ⟨a, r.kind⟩
    else some ⟨id.actor, r.kind⟩

/-- Everything the operation of an instruction demands is there, in a scene of `count` actors whose
scripts have the given sizes: targets and actors are inside the scene, or unresolved. -/
structure Instruction.Sound (size? : ScriptId → Option Nat) (count : Nat) (id : ScriptId)
    (i : Instruction) : Prop where
  target : ∀ k, i.operation.targetSlot? = some k →
    (∃ n, i.operands[k]? = some (.unresolved n)) ∨
      ∃ t dest size, i.operands[k]? = some (.target t) ∧ i.destination? id = some dest ∧
        size? dest = some size ∧ t < size
  actor : i.operation.namesActor = true →
    (∃ n, i.operands[0]? = some (.unresolved n)) ∨ ∃ a, i.operands[0]? = some (.actor a) ∧ a < count
  condition : i.operation.asksCondition = true → i.condition.isSome = true
  param : ∀ k, i.condition = some k → k.predicate.source = .actorTrack →
    (∃ n, k.param = some (.unresolved n)) ∨ ∃ a, k.param = some (.actor a) ∧ a < count
  test : i.operation.compares = true → i.test.isSome = true
  number : i.operation.counts = true → ∃ n, i.operands[0]? = some (.number n)
  record : i.operation.remembers = true → i.opcode.needsCallState = true
  home : i.operation.leadsBehavior = true → id.kind = .life

theorem indexBelow?_eq_some {count i : Nat} {n : Int} (h : Compile.indexBelow? count n = some i) :
    i = n.toNat ∧ i < count := by
  unfold Compile.indexBelow? at h
  split at h
  · next hn =>
      obtain rfl := Option.some.inj h
      exact ⟨rfl, hn.2⟩
  · cases h

/-- An actor argument is bound to an actor of the scene, or left unresolved. -/
theorem operand_actor (layout : Layout) {s : Slot} (hs : s.role = .actor) (n : Int) :
    (Compile.operand layout ⟨s, .number n⟩).1 = .unresolved n ∨
      (Compile.operand layout ⟨s, .number n⟩).1 = .actor n.toNat ∧ n.toNat < layout.actorCount := by
  unfold Compile.operand
  simp only [hs]
  cases h : Compile.indexBelow? layout.actorCount n with
  | none => exact .inl rfl
  | some i =>
      obtain ⟨rfl, hlt⟩ := indexBelow?_eq_some h
      exact .inr ⟨rfl, hlt⟩

theorem Compile.condition_predicate (layout : Layout) (k : Condition) :
    (condition layout k).1.predicate = k.predicate := by
  unfold condition
  cases k.param <;> rfl

theorem Compile.condition_param (layout : Layout) (k : Condition) :
    (condition layout k).1.param = k.param.map fun a => (operand layout a).1 := by
  unfold condition
  cases k.param <;> rfl

theorem Compile.condition_findings (layout : Layout) (k : Condition) :
    (condition layout k).2 = k.param.toList.flatMap fun a => (operand layout a).2 := by
  unfold condition
  cases k.param <;> simp

/-- A condition on the track of an actor names one. -/
theorem Condition.Conforms.actorTrack {catalog : Catalog} {k : Condition} (h : k.Conforms catalog)
    (hlaid : k.predicate.wellLaid = true) (hs : k.predicate.source = .actorTrack) :
    ∃ s n, s.role = .actor ∧ k.param = some ⟨s, .number n⟩ := by
  obtain ⟨-, hslot, hfits⟩ := h
  simp only [Predicate.wellLaid, hs, bne_self_eq_false, Bool.false_or, Bool.and_eq_true,
    Option.any_eq_true] at hlaid
  obtain ⟨-, s, hs, hnum, hrole⟩ := hlaid
  rw [hs, Option.map_eq_some_iff] at hslot
  obtain ⟨a, ha, rfl⟩ := hslot
  obtain ⟨n, hn⟩ := (hfits a ha).eq_number hnum
  exact ⟨a.slot, n, by simpa using hrole, by rw [ha, hn]⟩

theorem Catalog.marker_operation (catalog : Catalog) {o : Operation}
    (h : (builtinMarker o).operation = o) : (catalog.marker o).operation = o := by
  unfold marker
  cases hd : catalog.life.find? fun d => d.operation == o with
  | none => exact h
  | some d => simpa using Array.find?_some hd

/-- The command that is added for an operation. -/
theorem Command.isMarker_implicit (catalog : Catalog) {o : Operation}
    (h : (Catalog.builtinMarker o).operation = o) (args : List Argument) (other : Operation) :
    (Command.implicit (catalog.marker o) args).isMarker other = (o == other) := by
  have hop : (Command.implicit (catalog.marker o) args).opcode.operation = o :=
    catalog.marker_operation h
  rw [Command.isMarker, hop]
  rfl

namespace SceneSource

variable {catalog : Catalog} {source : SceneSource} {id : ScriptId} {index : Nat}
  {part : Option Int} {c : Command}

/-- The number of commands of a script, which is the number of its instructions. -/
def size? (catalog : Catalog) (source : SceneSource) (id : ScriptId) : Option Nat :=
  (source.parsed? catalog id).map fun s => s.commands.size

/-- A resolved offset lies inside the script it leads into. -/
theorem lookup_lt_size? {dest : ScriptId} {n : Int} {t : Nat}
    (h : Link.lookup (source.parsed? catalog dest) n = some t) :
    ∃ size, source.size? catalog dest = some size ∧ t < size := by
  unfold Link.lookup at h
  split at h
  · obtain ⟨s, hs, ht⟩ := Option.bind_eq_some_iff.mp h
    refine ⟨s.commands.size, by rw [size?, hs]; rfl, ?_⟩
    rw [parsed?_eq, Option.map_eq_some_iff] at hs
    obtain ⟨bytes, -, rfl⟩ := hs
    exact lt_size_of_parseScript_indexOf? ht
  · cases h

theorem linked_opcode : (source.linked catalog id c).opcode = c.opcode := by
  unfold linked Link.command Link.resolveCross
  dsimp only
  repeat' split
  all_goals rfl

theorem linked_condition : (source.linked catalog id c).condition = c.condition := by
  unfold linked Link.command Link.resolveCross
  dsimp only
  repeat' split
  all_goals rfl

theorem linked_test : (source.linked catalog id c).test = c.test := by
  unfold linked Link.command Link.resolveCross
  dsimp only
  repeat' split
  all_goals rfl

theorem linked_offset : (source.linked catalog id c).offset = c.offset := by
  unfold linked Link.command Link.resolveCross
  dsimp only
  repeat' split
  all_goals rfl

@[simp] theorem instruction_opcode :
    (source.instruction catalog id index part c).opcode = c.opcode := by
  unfold instruction Compile.command
  exact linked_opcode

theorem instruction_operation :
    (source.instruction catalog id index part c).operation = c.opcode.operation := by
  rw [Instruction.operation, instruction_opcode]

theorem instruction_operands :
    (source.instruction catalog id index part c).operands =
      (source.linked catalog id c).args.map fun a => (Compile.operand source.layout a).1 := by
  unfold instruction Compile.command
  simp

theorem instruction_condition :
    (source.instruction catalog id index part c).condition =
      c.condition.map fun k => (Compile.condition source.layout k).1 := by
  unfold instruction Compile.command
  simp [linked_condition, Function.comp_def]

theorem instruction_test :
    (source.instruction catalog id index part c).test = c.test.map Compile.test := by
  unfold instruction Compile.command
  simp [linked_test]

theorem instruction_offset :
    (source.instruction catalog id index part c).offset = c.offset := by
  unfold instruction Compile.command
  exact linked_offset

/-! ### References -/

/-- What a raw offset is bound to: the command it leads to in the destination, or nothing. -/
def reference (catalog : Catalog) (source : SceneSource) (dest : Option ScriptId) (n : Int) :
    Operand :=
  match dest.bind fun d => Link.lookup (source.parsed? catalog d) n with
  | some t => .target t
  | none => .unresolved n

theorem operand_resolve {layout : Layout} {s : Slot} {n : Int} {dest : ScriptId} {name : String} :
    (Compile.operand layout (Link.resolve (source.parsed? catalog dest) name ⟨s, .number n⟩).1).1 =
      source.reference catalog (some dest) n := by
  unfold reference
  rw [Option.bind_some]
  rcases Link.resolve_number (source.parsed? catalog dest) name s n with ⟨t, ht, he⟩ | ⟨ht, he⟩
  · rw [he, ht]
    rfl
  · rw [he, ht]
    rfl

/-- An argument that is no reference is bound as it was read. -/
theorem operands_getElem?_of_role_ne {k : Nat} {a : Argument} (ha : c.args[k]? = some a)
    (hrole : a.slot.role ≠ .offset)
    (hk : ∀ r, Link.crossReference? c.opcode.operation = some r → r.slot ≠ k) :
    (source.instruction catalog id index part c).operands[k]? =
      some (Compile.operand source.layout a).1 := by
  have hargs : (source.linked catalog id c).args[k]? = some a := by
    cases hx : Link.crossReference? c.opcode.operation with
    | none =>
        rw [linked, Link.command_of_crossReference?_eq_none hx]
        simp [ha, Link.ownArgument_of_role_ne hrole]
    | some r =>
        have hne := hk r hx
        unfold linked Link.command
        simp only [Link.resolveOffsets_eq, hx]
        unfold Link.resolveCross
        dsimp only
        repeat' split
        all_goals simp [ha, Link.ownArgument_of_role_ne hrole, hne]
  rw [instruction_operands, List.getElem?_map, hargs]
  rfl

theorem operands_getElem?_own {k : Nat} {s : Slot} {n : Int}
    (ha : c.args[k]? = some ⟨s, .number n⟩) (hrole : s.role = .offset)
    (hx : Link.crossReference? c.opcode.operation = none) :
    (source.instruction catalog id index part c).operands[k]? =
      some (source.reference catalog (some id) n) := by
  rw [instruction_operands, List.getElem?_map, linked, Link.command_of_crossReference?_eq_none hx]
  simp only [List.getElem?_map, ha, Option.map_some, Link.ownArgument, hrole, if_true]
  exact congrArg some operand_resolve

theorem firstNumber?_of_getElem? {s : Slot} {m : Int} (h : c.args[0]? = some ⟨s, .number m⟩) :
    c.firstNumber? = some m := by
  rw [← List.head?_eq_getElem?] at h
  simp [Command.firstNumber?, Command.jump?, h, Value.number?]

theorem operands_getElem?_cross {r : Link.CrossReference} {s : Slot} {n : Int}
    (hx : Link.crossReference? c.opcode.operation = some r)
    (ha : c.args[r.slot]? = some ⟨s, .number n⟩) (hrole : s.role ≠ .offset)
    (hnamed : r.named = true → ∃ s₀ m, s₀.role ≠ .offset ∧ c.args[0]? = some ⟨s₀, .number m⟩) :
    (source.instruction catalog id index part c).operands[r.slot]? =
      some (source.reference catalog (c.destination? source.actors.length id) n) := by
  have hlt := (List.getElem?_eq_some_iff.mp ha).1
  have hown : ∀ (k : Nat) (a : Argument), c.args[k]? = some a → a.slot.role ≠ .offset →
      (c.args.map fun a => (Link.ownArgument
        ((source.parsed catalog)[id.actor]?.map fun p => p.script id.kind) c.name a).1)[k]? =
        some a := by
    intro k a h hr
    rw [List.getElem?_map, h, Option.map_some, Link.ownArgument_of_role_ne hr]
  rw [instruction_operands, List.getElem?_map]
  unfold linked Link.command
  simp only [Link.resolveOffsets_eq, hx]
  rw [Link.resolveCross_eq (hown _ _ ha hrole)]
  have hdest : ∀ a, ((source.parsed catalog)[a]?.map fun p => p.script r.kind) =
      source.parsed? catalog ⟨a, r.kind⟩ := fun _ => rfl
  unfold Command.destination?
  simp only [hx, hdest]
  cases hr : r.named with
  | false =>
      rw [Link.crossActor_own hr]
      simp only [Bool.false_eq_true, if_false, List.getElem?_set, List.length_map, hlt, if_true,
        Option.map_some, operand_resolve]
  | true =>
      obtain ⟨s₀, m, hs₀, hm⟩ := hnamed hr
      have hfirst := firstNumber?_of_getElem? hm
      rw [Link.crossActor_named hr (firstNumber?_of_getElem? (hown _ _ hm hs₀)), size_parsed]
      simp only [if_true, hfirst, Option.bind_some]
      cases Compile.indexBelow? source.actors.length m with
      | none => simp [hlt, Link.abandon, Compile.operand, reference]
      | some a =>
          simp only [List.getElem?_set, List.length_map, hlt, if_true, Option.map_some,
            operand_resolve]

variable (catalog source id index part) in
/-- The actor that a command names is bound in its first operand. -/
theorem operands_zero_of_namesActor {kind : ScriptKind} (hargs : ArgumentsConform c.opcode c.args)
    (hlaid : c.opcode.wellLaid kind = true) (hn : c.opcode.operation.namesActor = true) :
    ∃ s n, s.role = .actor ∧ c.args[0]? = some ⟨s, .number n⟩ ∧
      (source.instruction catalog id index part c).operands[0]? =
        some (Compile.operand source.layout ⟨s, .number n⟩).1 := by
  obtain ⟨s, hs, hnum, hrole⟩ := Opcode.slot_of_namesActor hlaid hn
  obtain ⟨n, ha⟩ := hargs.number hs hnum
  refine ⟨s, n, hrole, ha, operands_getElem?_of_role_ne ha (by simp [hrole]) ?_⟩
  intro r hr
  cases hop : c.opcode.operation <;> rw [hop] at hn hr <;>
    simp [Operation.namesActor, Link.crossReference?] at hn hr <;> subst hr <;> decide

variable (catalog source id index part) in
/-- The jump target of a command is bound to where its number leads in the destination. -/
theorem operands_target {kind : ScriptKind} (hargs : ArgumentsConform c.opcode c.args)
    (hlaid : c.opcode.wellLaid kind = true) {k : Nat}
    (hk : c.opcode.operation.targetSlot? = some k) :
    ∃ s n, c.args[k]? = some ⟨s, .number n⟩ ∧
      (source.instruction catalog id index part c).operands[k]? =
        some (source.reference catalog (c.destination? source.actors.length id) n) := by
  obtain ⟨s, hs, hnum, ⟨hx, hrole⟩ | ⟨r, hx, rfl, hnamed, hrole⟩⟩ := Opcode.slot_of_targetSlot? hlaid hk
  · obtain ⟨n, ha⟩ := hargs.number hs hnum
    refine ⟨s, n, ha, ?_⟩
    rw [operands_getElem?_own ha hrole hx, Command.destination?, hx]
  · obtain ⟨n, ha⟩ := hargs.number hs hnum
    refine ⟨s, n, ha, operands_getElem?_cross hx ha hrole ?_⟩
    intro hr
    obtain ⟨s₀, hs₀, hnum₀, hrole₀⟩ := Opcode.slot_of_namesActor hlaid (hnamed.symm.trans hr)
    obtain ⟨m, hm⟩ := hargs.number hs₀ hnum₀
    exact ⟨s₀, m, by simp [hrole₀], hm⟩

theorem operand_actor?_eq {layout : Layout} {s : Slot} (hs : s.role = .actor) (n : Int) :
    (Compile.operand layout ⟨s, .number n⟩).1.actor? = Compile.indexBelow? layout.actorCount n := by
  unfold Compile.operand
  simp only [hs]
  cases Compile.indexBelow? layout.actorCount n <;> rfl

theorem crossReference?_named {o : Operation} {r : Link.CrossReference}
    (h : Link.crossReference? o = some r) : r.named = o.namesActor := by
  cases o <;> simp [Link.crossReference?] at h <;> subst h <;> rfl

/-- A command and its instruction lead into the same script. -/
theorem instruction_destination? {kind : ScriptKind} (hargs : ArgumentsConform c.opcode c.args)
    (hlaid : c.opcode.wellLaid kind = true) :
    (source.instruction catalog id index part c).destination? id =
      c.destination? source.actors.length id := by
  unfold Instruction.destination? Command.destination?
  rw [instruction_operation]
  cases hx : Link.crossReference? c.opcode.operation with
  | none => rfl
  | some r =>
      dsimp only
      cases hr : r.named with
      | false => rfl
      | true =>
          obtain ⟨s, n, hrole, ha, hop⟩ := operands_zero_of_namesActor catalog source id index
            part hargs hlaid ((crossReference?_named hx).symm.trans hr)
          rw [hop, firstNumber?_of_getElem? ha, Option.bind_some, Option.bind_some,
            operand_actor?_eq hrole]
          rfl

/-- **Instructions are sound**: a command that conforms to a catalog, of an opcode whose entry is
well laid, becomes an instruction that has all its operation demands. -/
theorem sound_instruction {enclosing : Option Predicate}
    (hc : c.Conforms catalog id.kind enclosing) (hlaid : c.opcode.wellLaid id.kind = true)
    (hpred : ∀ k ∈ c.condition, k.predicate.wellLaid = true) :
    (source.instruction catalog id index part c).Sound (source.size? catalog)
      source.actors.length id := by
  obtain ⟨-, -, hcond, htest, -, hrecord, hhome⟩ := Opcode.wellLaid_iff.mp hlaid
  constructor
  · intro k hk
    rw [instruction_operation] at hk
    obtain ⟨s, n, -, hop⟩ := operands_target catalog source id index part hc.args hlaid hk
    rw [hop, instruction_destination? hc.args hlaid]
    unfold reference
    cases hd : c.destination? source.actors.length id with
    | none => exact .inl ⟨n, rfl⟩
    | some dest =>
        rw [Option.bind_some]
        cases ht : Link.lookup (source.parsed? catalog dest) n with
        | none => exact .inl ⟨n, rfl⟩
        | some t =>
            obtain ⟨size, hsize, hlt⟩ := lookup_lt_size? ht
            exact .inr ⟨t, dest, size, rfl, rfl, hsize, hlt⟩
  · intro hn
    rw [instruction_operation] at hn
    obtain ⟨s, n, hrole, -, hop⟩ := operands_zero_of_namesActor catalog source id index part
      hc.args hlaid hn
    rw [hop]
    rcases operand_actor source.layout hrole n with h | ⟨h, hlt⟩
    · exact .inl ⟨n, by rw [h]⟩
    · exact .inr ⟨n.toNat, by rw [h], hlt⟩
  · intro h
    rw [instruction_operation] at h
    rw [instruction_condition, Option.isSome_map, hc.guard.condition_isSome, hcond h]
  · intro k hk hsource
    rw [instruction_condition, Option.map_eq_some_iff] at hk
    obtain ⟨k, hk, rfl⟩ := hk
    rw [Compile.condition_predicate] at hsource
    obtain ⟨s, n, hrole, hparam⟩ := (hc.guard.condition_conforms k hk).actorTrack
      (hpred k hk) hsource
    rw [Compile.condition_param, hparam, Option.map_some]
    rcases operand_actor source.layout hrole n with h | ⟨h, hlt⟩
    · exact .inl ⟨n, by rw [h]⟩
    · exact .inr ⟨n.toNat, by rw [h], hlt⟩
  · intro h
    rw [instruction_operation] at h
    rw [instruction_test, Option.isSome_map, hc.guard.test_isSome, htest h]
  · intro h
    rw [instruction_operation] at h
    obtain ⟨s, hs, hnum, hrole⟩ := Opcode.slot_of_counts hlaid h
    obtain ⟨n, ha⟩ := hc.args.number hs hnum
    refine ⟨n, ?_⟩
    rw [operands_getElem?_of_role_ne ha (by rcases hrole with h | h <;> simp [h])]
    · rcases hrole with h | h <;> simp [Compile.operand, h]
    · intro r hr
      cases hop : c.opcode.operation <;> rw [hop] at h hr <;>
        simp [Operation.counts, Link.crossReference?] at h hr
  · intro h
    rw [instruction_operation] at h
    rw [instruction_opcode]
    exact hrecord h
  · intro h
    rw [instruction_operation] at h
    exact hhome h

/-- A command the parser adds demands nothing. -/
theorem sound_instruction_of_added (h : Added catalog c) :
    (source.instruction catalog id index part c).Sound (source.size? catalog)
      source.actors.length id := by
  have hcond : (source.instruction catalog id index part c).condition = none := by
    rw [instruction_condition]
    cases h <;> rfl
  have hop : ∃ o ∈ [Operation.endIf, .endSwitch, .behaviour],
      (source.instruction catalog id index part c).operation = o := by
    simp only [instruction_operation]
    cases h with
    | endIf => exact ⟨.endIf, by simp, catalog.marker_operation rfl⟩
    | endSwitch => exact ⟨.endSwitch, by simp, catalog.marker_operation rfl⟩
    | behaviour n => exact ⟨.behaviour, by simp, catalog.marker_operation rfl⟩
  obtain ⟨o, ho, hop⟩ := hop
  simp only [List.mem_cons, List.not_mem_nil, or_false] at ho
  rcases ho with rfl | rfl | rfl <;> constructor <;>
    simp [hop, hcond, Operation.targetSlot?, Operation.namesActor, Operation.asksCondition,
      Operation.compares, Operation.counts, Operation.remembers, Operation.leadsBehavior]

/-- Every instruction of a scene compiled with the standard catalog is sound. -/
theorem sound_of_getElem? {s : ParsedScript} {k : Nat} {i : Instruction}
    (hs : source.parsed? .standard id = some s)
    (hi : (source.program .standard s).instructions[k]? = some i) :
    i.Sound (source.size? .standard) source.actors.length id := by
  rw [getElem?_instructions .standard source hs, Option.map_eq_some_iff] at hi
  obtain ⟨c, hc, rfl⟩ := hi
  rw [parsed?_eq, Option.map_eq_some_iff] at hs
  obtain ⟨bytes, -, rfl⟩ := hs
  rcases parseScript_commands_conform (Array.mem_of_getElem? hc) with hadded | ⟨enclosing, hconf⟩
  · exact sound_instruction_of_added hadded
  · refine sound_instruction hconf (standard_opcode_wellLaid hconf.opcode) ?_
    intro k hk
    exact standard_predicate_wellLaid (hconf.guard.condition_conforms k hk).1

end SceneSource

/-! ### Nothing unresolved without a finding -/

/-- Binding an argument leaves it unresolved only with a finding: it is no offset any more that
linking passed over or gave up. -/
def Argument.Settled (a : Argument) : Prop :=
  match a.value with
  | .number _ => a.slot.role ≠ .offset
  | .text _ | .target _ => True
  | .unresolved _ => False

theorem Argument.Fits.settled {a : Argument} (h : a.Fits) (hrole : a.slot.role ≠ .offset) :
    a.Settled := by
  unfold Argument.Fits Value.Fits at h
  unfold Argument.Settled
  split <;> simp_all

namespace Link

theorem resolve_settled {destination : Option ParsedScript} {name : String} {a : Argument}
    (h : a.Fits ∨ a.Settled) (hfound : (resolve destination name a).2 = []) :
    (resolve destination name a).1.Settled := by
  obtain ⟨slot, value⟩ := a
  cases value with
  | number n =>
      rcases resolve_number destination name slot n with ⟨t, -, he⟩ | ⟨-, he⟩
      · rw [he]
        trivial
      · rw [he] at hfound
        cases hfound
  | text s => trivial
  | target t => trivial
  | unresolved n => rcases h with h | h <;> exact h.elim

theorem ownArgument_settled {own : Option ParsedScript} {name : String} {a : Argument}
    (h : a.Fits ∨ a.Settled) (hfound : (ownArgument own name a).2 = []) :
    (ownArgument own name a).1.Settled := by
  unfold ownArgument at hfound ⊢
  split
  · next hrole =>
      rw [if_pos hrole] at hfound
      exact resolve_settled h hfound
  · next hrole => exact h.elim (fun h => h.settled hrole) id

/-- A reference that is linked without a finding is settled. -/
theorem resolveCross_settled {actors : Array ParsedActor} {own : Nat} {r : CrossReference}
    {c : Command} (h : ∀ a ∈ c.args, a.Settled)
    (hfound : (resolveCross actors own r c).2 = []) :
    ∀ a ∈ (resolveCross actors own r c).1.args, a.Settled := by
  cases ha : c.args[r.slot]? with
  | none =>
      unfold resolveCross
      simp only [ha]
      exact h
  | some a =>
      rw [resolveCross_eq ha] at hfound ⊢
      cases hx : (crossActor actors own r c).1 with
      | none =>
          simp only [hx] at hfound
          exact absurd hfound (crossActor_found hx)
      | some x =>
          simp only [hx, List.append_eq_nil_iff] at hfound ⊢
          intro b hb
          rcases List.mem_or_eq_of_mem_set hb with hb | rfl
          · exact h b hb
          · exact resolve_settled (.inr (h a (List.mem_of_getElem? ha))) hfound.2

/-- A command that is linked without a finding is settled. -/
theorem command_settled {actors : Array ParsedActor} {id : ScriptId} {c : Command}
    (h : ∀ a ∈ c.args, a.Fits ∨ a.Settled) (hfound : (command actors id c).2 = []) :
    ∀ a ∈ (command actors id c).1.args, a.Settled := by
  have hown : ∀ own : Option ParsedScript,
      (c.args.flatMap fun a => (ownArgument own c.name a).2) = [] →
        ∀ a ∈ c.args.map fun a => (ownArgument own c.name a).1, a.Settled := by
    intro own hnil a ha
    obtain ⟨b, hb, rfl⟩ := List.mem_map.mp ha
    exact ownArgument_settled (h b hb) (List.flatMap_eq_nil_iff.mp hnil b hb)
  cases hx : crossReference? c.opcode.operation with
  | none =>
      rw [command_of_crossReference?_eq_none hx] at hfound ⊢
      exact hown _ hfound
  | some r =>
      unfold command at hfound ⊢
      simp only [resolveOffsets_eq, hx, List.append_eq_nil_iff] at hfound ⊢
      exact resolveCross_settled (hown _ hfound.1) hfound.2

end Link

/-- A settled argument is bound, or left unresolved with a finding. -/
theorem Argument.Settled.operand_ne {layout : Layout} {a : Argument} (h : a.Settled)
    (hfound : (Compile.operand layout a).2 = []) (n : Int) :
    (Compile.operand layout a).1 ≠ .unresolved n := by
  intro he
  unfold Argument.Settled at h
  unfold Compile.operand at hfound he
  repeat' split at he
  all_goals simp_all

/-- Nothing in a command of a script is unresolved before linking. -/
theorem parseScript_settled {scene : Nat} {id : ScriptId} {bytes : List UInt8} {c : Command}
    (h : c ∈ (parseScript .standard scene id bytes).1.commands) :
    (∀ a ∈ c.args, a.Fits ∨ a.Settled) ∧ ∀ b ∈ c.condition, ∀ a ∈ b.param, a.Settled := by
  rcases parseScript_commands_conform h with hadded | ⟨enclosing, hconf⟩
  · cases hadded <;> simp [Command.implicit, Argument.Settled, Slot.label]
  · refine ⟨fun a ha => .inl (hconf.args.2 a ha), ?_⟩
    intro b hb a ha
    obtain ⟨hpred, hslot, hfits⟩ := hconf.guard.condition_conforms b hb
    have hlaid := standard_predicate_wellLaid hpred
    rw [Option.mem_def.mp ha, Option.map_some] at hslot
    simp only [Predicate.wellLaid, ← hslot, Option.all_some, Bool.and_eq_true, bne_iff_ne] at hlaid
    exact (hfits a ha).settled hlaid.1

namespace SceneSource

variable {source : SceneSource} {id : ScriptId}

/-- **What is unresolved was reported**: without findings, no operand and no parameter of a
condition is unresolved. -/
theorem resolved_of_findings_eq_nil (hnil : source.findings .standard = []) {s : ParsedScript}
    {k : Nat} {i : Instruction} (hs : source.parsed? .standard id = some s)
    (hi : (source.program .standard s).instructions[k]? = some i) (n : Int) :
    .unresolved n ∉ i.operands ∧ ∀ b, i.condition = some b → b.param ≠ some (.unresolved n) := by
  rw [getElem?_instructions .standard source hs, Option.map_eq_some_iff] at hi
  obtain ⟨c, hc, rfl⟩ := hi
  rw [parsed?_eq, Option.map_eq_some_iff] at hs
  obtain ⟨bytes, hbytes, rfl⟩ := hs
  have hnone : ∀ d, ¬ source.FoundIn .standard id bytes d := by
    intro d hd
    have := (mem_findings_iff .standard source d).mpr ⟨id, bytes, hbytes, hd⟩
    rw [hnil] at this
    cases this
  have hlink : (Link.command (source.parsed .standard) id c).2 = [] := by
    rw [List.eq_nil_iff_forall_not_mem]
    intro issue hissue
    exact hnone _ (.inr ⟨k, c, hc, .inl ⟨issue, hissue, rfl⟩⟩)
  have hbind : ∀ part, (Compile.command source.layout k part (source.linked .standard id c)).2 = [] := by
    intro part
    rw [List.eq_nil_iff_forall_not_mem]
    intro issue hissue
    exact hnone _ (.inr ⟨k, c, hc, .inr ⟨issue, hissue, rfl⟩⟩)
  obtain ⟨hargs, hparam⟩ := parseScript_settled (Array.mem_of_getElem? hc)
  simp only [Compile.command, linked_condition, List.append_eq_nil_iff, List.flatMap_eq_nil_iff] at hbind
  obtain ⟨hcond, hoperands⟩ := hbind none
  constructor
  · rw [instruction_operands]
    intro hmem
    obtain ⟨a, ha, he⟩ := List.mem_map.mp hmem
    have hfound := hoperands (Compile.operand source.layout a) (List.mem_map_of_mem ha)
    exact (Link.command_settled hargs hlink a ha).operand_ne hfound n he
  · intro b hb he
    rw [instruction_condition, Option.map_eq_some_iff] at hb
    obtain ⟨b, hb, rfl⟩ := hb
    rw [Compile.condition_param, Option.map_eq_some_iff] at he
    obtain ⟨a, ha, he⟩ := he
    have hfound := hcond (Compile.condition source.layout b) (by simp [hb])
    rw [Compile.condition_findings, ha] at hfound
    exact (hparam b hb a ha).operand_ne (by simpa using hfound) n he

end SceneSource

end SceneScript
