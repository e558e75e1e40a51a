import SceneScript.Proofs.References

/-! # Findings, counted

Compiling a scene reports what it could not resolve, and reports it once. A reference that leads
nowhere is a warning of linking, an actor or point outside the scene an error of binding, a script
cut short an error of parsing, and there are no other findings.

* `linkCounts_of_form`, `length_bind_findings`: the findings of one command are as many as the
  operands of its instruction, or parameters of its condition, that are left unresolved.
* `parseFindings_eq`, `linkFindings_eq`, `bindFindings_eq`: the findings of a scene are those of its
  scripts.
* `totals_compileScene`: the log of a compiled scene counts what is unresolved in it. -/

namespace SceneScript

/-! ### Operands by what they are for -/

/-- Whether a slot names something of the scene. -/
def Slot.names (s : Slot) : Bool := s.role == .actor || s.role == .point

namespace Command

/-- Whether argument `k` of a command names an actor or a point. -/
def namesAt (c : Command) (k : Nat) : Bool := c.args[k]?.any fun a => a.slot.names

/-- The operands to which the arguments of a command at some places are compiled. -/
def operandsAt (c : Command) (i : Instruction) (place : Nat → Bool) : List Operand :=
  ((List.range c.args.length).filter place).filterMap fun k => i.operands[k]?

/-- The operands of an instruction that are references. -/
def references (c : Command) (i : Instruction) : List Operand := c.operandsAt i c.refersAt

/-- The operands of an instruction that name actors or points, and the parameter of its
condition. -/
def bindings (c : Command) (i : Instruction) : List Operand :=
  c.operandsAt i c.namesAt ++ (i.condition.bind BoundCondition.param).toList

end Command

namespace SceneSource

/-- The scripts of a scene, in order. -/
def scriptIds (source : SceneSource) : List ScriptId :=
  (List.range source.actors.length).flatMap fun a => [.life a, .move a]

/-- The commands of a script beside the instructions they are compiled to. -/
def compiledCommands (source : SceneSource) (id : ScriptId) : List (Command × Instruction) :=
  match source.parsed? .standard id, (compileScene .standard source).program? id with
  | some s, some p => s.commands.toList.zip p.instructions.toList
  | _, _ => []

/-- The number of operands of some sort that are left unresolved, in all scripts of a scene. -/
def unresolved (source : SceneSource) (sort : Command → Instruction → List Operand) : Nat :=
  (source.scriptIds.flatMap fun id =>
    (source.compiledCommands id).flatMap fun x => sort x.1 x.2).countP Operand.isUnresolved

/-- The number of scripts of a scene that were cut short. -/
def truncated (source : SceneSource) : Nat :=
  source.scriptIds.countP fun id =>
    (source.parsed? .standard id).any fun s => s.truncatedAt.isSome

end SceneSource

/-! ### Counting -/

section
variable {α β γ : Type} {l : List α}

theorem countP_range_any (l : List α) (p : α → Bool) :
    (List.range l.length).countP (fun k => l[k]?.any p) = l.countP p := by
  induction l with
  | nil => rfl
  | cons a l ih =>
      rw [List.length_cons, List.range_succ_eq_map, List.countP_cons, List.countP_map,
        List.countP_cons, ← ih]
      rfl

theorem length_flatMap_congr {f : α → List β} {g : α → List γ}
    (h : ∀ a ∈ l, (f a).length = (g a).length) : (l.flatMap f).length = (l.flatMap g).length := by
  induction l with
  | nil => rfl
  | cons a l ih =>
      rw [List.flatMap_cons, List.flatMap_cons, List.length_append, List.length_append,
        h a List.mem_cons_self, ih fun b hb => h b (List.mem_cons_of_mem a hb)]

theorem length_flatMap_eq_countP {f : α → List β} {g : α → List γ} {p : γ → Bool}
    (h : ∀ a ∈ l, (f a).length = (g a).countP p) :
    (l.flatMap f).length = (l.flatMap g).countP p := by
  rw [List.countP_eq_length_filter, List.filter_flatMap]
  apply length_flatMap_congr
  intro a ha
  rw [h a ha, List.countP_eq_length_filter]

theorem length_flatMap_of_one {f : α → List β} {p : α → Bool}
    (h : ∀ a ∈ l, (f a).length = if p a then 1 else 0) : (l.flatMap f).length = l.countP p := by
  have hone : ∀ a ∈ l, (f a).length = [a].countP p := by
    intro a ha
    rw [h a ha, List.countP_cons, List.countP_nil, Nat.zero_add]
  rw [length_flatMap_eq_countP hone, List.flatMap_singleton']

end

theorem flatMap_fst_zipIdx {α β : Type} (f : α → List β) (l : List α) :
    (l.zipIdx.flatMap fun x => f x.1) = l.flatMap f := by
  calc (l.zipIdx.flatMap fun x => f x.1) = (l.zipIdx.map Prod.fst).flatMap f := by
        rw [List.flatMap_map]
    _ = l.flatMap f := by rw [List.zipIdx_map_fst]

/-- Operands at places are counted place by place. -/
theorem Command.countP_operandsAt (c : Command) (i : Instruction) (place : Nat → Bool) :
    (c.operandsAt i place).countP Operand.isUnresolved =
      (List.range c.args.length).countP fun k =>
        place k && i.operands[k]?.any Operand.isUnresolved := by
  rw [operandsAt, List.countP_filterMap, List.countP_filter]
  congr 1
  funext k
  cases i.operands[k]? <;> simp [Bool.and_comm]

/-! ### One argument -/

namespace Link

theorem resolve_slot (destination : Option ParsedScript) (name : String) (a : Argument) :
    (resolve destination name a).1.slot = a.slot := by
  unfold resolve
  split
  · split <;> rfl
  · rfl

theorem ownArgument_slot (own : Option ParsedScript) (name : String) (a : Argument) :
    (ownArgument own name a).1.slot = a.slot := by
  unfold ownArgument
  split
  · exact resolve_slot own name a
  · rfl

/-- Resolving a number is reported exactly when it is left unresolved, and as a warning. -/
theorem resolve_findings (layout : Layout) (destination : Option ParsedScript) (name : String)
    (slot : Slot) (n : Int) :
    (resolve destination name ⟨slot, .number n⟩).2.length =
        (if (Compile.operand layout (resolve destination name ⟨slot, .number n⟩).1).1.isUnresolved
          then 1 else 0) ∧
      ∀ issue ∈ (resolve destination name ⟨slot, .number n⟩).2, issue.severity = .warning := by
  rcases resolve_number destination name slot n with ⟨t, -, he⟩ | ⟨-, he⟩
  · rw [he]
    exact ⟨rfl, by simp⟩
  · rw [he]
    exact ⟨rfl, by simp [LinkIssue.severity]⟩

end Link

/-- Binding an argument is reported exactly when it names something and is left unresolved, unless
linking left it so. -/
theorem operand_findings (layout : Layout) {a : Argument}
    (h : a.slot.names = true → ∀ n, a.value ≠ .unresolved n) :
    (Compile.operand layout a).2.length =
      if a.slot.names && (Compile.operand layout a).1.isUnresolved then 1 else 0 := by
  obtain ⟨⟨wire, role, hidden⟩, value⟩ := a
  cases value with
  | text s => simp [Compile.operand, Operand.isUnresolved]
  | target t => simp [Compile.operand, Operand.isUnresolved]
  | unresolved n =>
      cases hnames : Slot.names ⟨wire, role, hidden⟩ with
      | false => rfl
      | true => exact absurd rfl (h hnames n)
  | number n =>
      cases role with
      | actor =>
          cases hb : Compile.indexBelow? layout.actorCount n <;>
            simp [Compile.operand, hb, Slot.names, Operand.isUnresolved]
      | point =>
          cases hb : Compile.indexBelow? layout.pointCount n <;>
            simp [Compile.operand, hb, Slot.names, Operand.isUnresolved]
      | offset | value | label => rfl

/-- Of settled arguments, only those that name something are left unresolved. -/
theorem Argument.Settled.names_of_isUnresolved {layout : Layout} {a : Argument} (h : a.Settled)
    (hopen : (Compile.operand layout a).1.isUnresolved = true) : a.slot.names = true := by
  obtain ⟨⟨wire, role, hidden⟩, value⟩ := a
  cases value with
  | text s => cases hopen
  | target t => cases hopen
  | unresolved n => exact h.elim
  | number n =>
      cases role with
      | actor | point => rfl
      | offset => exact absurd rfl h
      | value | label => cases hopen

/-- A settled argument is reported exactly when binding leaves it unresolved. -/
theorem Argument.Settled.findings (layout : Layout) {a : Argument} (h : a.Settled) :
    (Compile.operand layout a).2.length =
      if (Compile.operand layout a).1.isUnresolved then 1 else 0 := by
  have hvalue : a.slot.names = true → ∀ n, a.value ≠ .unresolved n := by
    intro _ n hn
    unfold Argument.Settled at h
    rw [hn] at h
    exact h
  rw [operand_findings layout hvalue]
  cases hopen : (Compile.operand layout a).1.isUnresolved with
  | false => rw [Bool.and_false]
  | true => rw [h.names_of_isUnresolved hopen, Bool.and_self]

/-! ### One command -/

theorem crossReference?_of_named {o : Operation} (h : o = .setTrackObj ∨ o = .setBehaviourObj) :
    ∃ r, Link.crossReference? o = some r ∧ r.slot = 1 ∧ r.named = true := by
  rcases h with rfl | rfl <;> exact ⟨_, rfl, rfl, rfl⟩

namespace Link

variable {actors : Array ParsedActor} {id : ScriptId} {c : Command}

/-- Linking SET_TRACK resolves its argument in the move script of the same actor. -/
theorem command_track {n : Int} (hop : c.opcode.operation = .setTrack)
    (hargs : c.args = [⟨.u16, .number n⟩]) :
    command actors id c =
      let resolved := resolve (actors[id.actor]?.map fun p => p.script .move) c.name
        ⟨.u16, .number n⟩
      ({ c with args := [resolved.1] }, resolved.2) := by
  have hoffsets : ∀ own, resolveOffsets own c.name c.args = (c.args, []) := by
    intro own
    rw [hargs]
    rfl
  unfold command
  simp only [hoffsets, hop, crossReference?]
  unfold resolveCross
  simp [hargs, Command.name]

/-- Linking a command that names an actor resolves its second argument in a script of that actor, or
gives it up where there is no such actor, with one finding. -/
theorem command_named {r : CrossReference} {a n : Int}
    (hx : crossReference? c.opcode.operation = some r) (hslot : r.slot = 1) (hr : r.named = true)
    (hargs : c.args = [⟨.actor, .number a⟩, ⟨.u16, .number n⟩]) :
    command actors id c =
      match Compile.indexBelow? actors.size a with
      | some x =>
        let resolved := resolve (actors[x]?.map fun p => p.script r.kind) c.name ⟨.u16, .number n⟩
        ({ c with args := [⟨.actor, .number a⟩, resolved.1] }, resolved.2)
      | none =>
        ({ c with args := [⟨.actor, .number a⟩, ⟨.u16, .unresolved n⟩] },
          [.unknownTargetActor c.name a actors.size]) := by
  have hoffsets : ∀ own, resolveOffsets own c.name c.args = (c.args, []) := by
    intro own
    rw [hargs]
    rfl
  have hfirst : c.firstNumber? = some a := by
    rw [Command.firstNumber?, Command.jump?, hargs]
    rfl
  have hactor : crossActor actors id.actor r c =
      match Compile.indexBelow? actors.size a with
      | some x => (some x, [])
      | none => (none, [.unknownTargetActor c.name a actors.size]) := by
    unfold crossActor targetActor Compile.indexBelow?
    simp only [hr, if_true, hfirst]
    split <;> rfl
  have harg : c.args[r.slot]? = some ⟨.u16, .number n⟩ := by
    rw [hslot, hargs]
    rfl
  unfold command
  simp only [hoffsets, hx, resolveCross_eq harg, hactor, hslot]
  cases Compile.indexBelow? actors.size a <;> simp [hargs, abandon]

end Link

namespace SceneSource

variable {catalog : Catalog} {source : SceneSource} {id : ScriptId} {index : Nat}
  {part : Option Int} {c : Command}

/-- What linking says about a command, as many warnings as it leaves references unresolved. -/
def LinkCounts (catalog : Catalog) (source : SceneSource) (id : ScriptId) (i : Instruction)
    (c : Command) : Prop :=
  (Link.command (source.parsed catalog) id c).2.length =
      (c.references i).countP Operand.isUnresolved ∧
    ∀ issue ∈ (Link.command (source.parsed catalog) id c).2, issue.severity = .warning

theorem linkCounts_plain (hx : Link.crossReference? c.opcode.operation = none)
    (hoffsets : ∀ a ∈ c.args, a.slot.role = .offset → ∃ n : Nat, a = ⟨a.slot, .number n⟩) :
    source.LinkCounts catalog id (source.instruction catalog id index part c) c := by
  have hcommand : Link.command (source.parsed catalog) id c = _ :=
    Link.command_of_crossReference?_eq_none hx
  generalize hown : ((source.parsed catalog)[id.actor]?.map fun p => p.script id.kind) = own
    at hcommand
  have hone : ∀ a ∈ c.args,
      (Link.ownArgument own c.name a).2.length =
          (if a.slot.role == .offset &&
              (Compile.operand source.layout (Link.ownArgument own c.name a).1).1.isUnresolved
            then 1 else 0) ∧
        ∀ issue ∈ (Link.ownArgument own c.name a).2, issue.severity = .warning := by
    intro a ha
    by_cases hrole : a.slot.role = .offset
    · obtain ⟨n, hn⟩ := hoffsets a ha hrole
      have hresolve : Link.ownArgument own c.name a = Link.resolve own c.name ⟨a.slot, .number n⟩ := by
        rw [Link.ownArgument, if_pos hrole, ← hn]
      rw [hresolve, hrole]
      simpa using Link.resolve_findings source.layout own c.name a.slot n
    · rw [Link.ownArgument_of_role_ne hrole]
      simp [hrole]
  have hoperands : (source.instruction catalog id index part c).operands =
      c.args.map fun a => (Compile.operand source.layout (Link.ownArgument own c.name a).1).1 := by
    rw [instruction_operands, linked, hcommand, List.map_map]
    rfl
  have hrefers : ∀ k, (c.refersAt k &&
      (source.instruction catalog id index part c).operands[k]?.any Operand.isUnresolved) =
        c.args[k]?.any fun a => a.slot.role == .offset &&
          (Compile.operand source.layout (Link.ownArgument own c.name a).1).1.isUnresolved := by
    intro k
    rw [hoperands, List.getElem?_map, Command.refersAt, refersAway_of_crossReference?_eq_none hx]
    cases c.args[k]? <;> simp
  unfold LinkCounts
  rw [hcommand]
  constructor
  · have hcount := Command.countP_operandsAt c (source.instruction catalog id index part c) c.refersAt
    simp only [hrefers] at hcount
    rw [Command.references, hcount, countP_range_any,
      length_flatMap_of_one fun a ha => (hone a ha).1]
  · intro issue hissue
    obtain ⟨a, ha, hmem⟩ := List.mem_flatMap.mp hissue
    exact (hone a ha).2 issue hmem

theorem linkCounts_track {n : Nat} (hop : c.opcode.operation = .setTrack)
    (hargs : c.args = [⟨.u16, .number n⟩]) :
    source.LinkCounts catalog id (source.instruction catalog id index part c) c := by
  have hcommand : Link.command (source.parsed catalog) id c = _ := Link.command_track hop hargs
  have hoperands : (source.instruction catalog id index part c).operands =
      (Link.command (source.parsed catalog) id c).1.args.map fun a =>
        (Compile.operand source.layout a).1 := instruction_operands
  unfold LinkCounts
  rw [hcommand] at hoperands ⊢
  have hfound := Link.resolve_findings source.layout
    ((source.parsed catalog)[id.actor]?.map fun p => p.script .move) c.name .u16 n
  refine ⟨?_, hfound.2⟩
  simp [Command.references, Command.countP_operandsAt, Command.refersAt, hargs, hop, hoperands, Operation.refersAway,
    List.range_succ, List.countP_cons, hfound.1]

theorem linkCounts_named {a n : Nat}
    (hop : c.opcode.operation = .setTrackObj ∨ c.opcode.operation = .setBehaviourObj)
    (hargs : c.args = [⟨.actor, .number a⟩, ⟨.u16, .number n⟩]) :
    source.LinkCounts catalog id (source.instruction catalog id index part c) c := by
  obtain ⟨r, hx, hslot, hr⟩ := crossReference?_of_named hop
  have haway : ∀ k, c.opcode.operation.refersAway k = (k == 1) := by
    rcases hop with hop | hop <;> rw [hop] <;> exact fun _ => rfl
  have hcommand : Link.command (source.parsed catalog) id c = _ :=
    Link.command_named hx hslot hr hargs
  have hoperands : (source.instruction catalog id index part c).operands =
      (Link.command (source.parsed catalog) id c).1.args.map fun a =>
        (Compile.operand source.layout a).1 := instruction_operands
  unfold LinkCounts
  cases hb : Compile.indexBelow? (source.parsed catalog).size (a : Int) with
  | none =>
      rw [hb] at hcommand
      rw [hcommand] at hoperands ⊢
      refine ⟨?_, by simp [LinkIssue.severity]⟩
      simp [Command.references, Command.countP_operandsAt, Command.refersAt, hargs, haway, hoperands, List.range_succ,
        Compile.operand, Slot.actor, Operand.isUnresolved]
  | some x =>
      rw [hb] at hcommand
      rw [hcommand] at hoperands ⊢
      have hfound := Link.resolve_findings source.layout
        ((source.parsed catalog)[x]?.map fun p => p.script r.kind) c.name .u16 n
      refine ⟨?_, hfound.2⟩
      simp [Command.references, Command.countP_operandsAt, Command.refersAt, hargs, haway, hoperands, List.range_succ,
        List.countP_cons, Slot.actor, hfound.1]

/-- Linking reports every reference it leaves unresolved once, and nothing else. -/
theorem linkCounts_of_form (hform : c.Form) :
    source.LinkCounts catalog id (source.instruction catalog id index part c) c := by
  cases hform with
  | plain hx hoffsets => exact linkCounts_plain hx hoffsets
  | track hop hargs => exact linkCounts_track hop hargs
  | named hop hargs => exact linkCounts_named hop hargs

/-- Linking changes no slot, and no argument that names something. -/
theorem linked_args_of_form (catalog : Catalog) (source : SceneSource) (id : ScriptId)
    (hform : c.Form) :
    (source.linked catalog id c).args.map Argument.slot = c.args.map Argument.slot ∧
      ∀ a ∈ (source.linked catalog id c).args, a.slot.names = true → a ∈ c.args := by
  unfold linked
  cases hform with
  | plain hx hoffsets =>
      rw [Link.command_of_crossReference?_eq_none hx]
      constructor
      · rw [List.map_map]
        exact List.map_congr_left fun a _ => Link.ownArgument_slot _ _ a
      · intro a ha hnames
        obtain ⟨b, hb, rfl⟩ := List.mem_map.mp ha
        rw [Link.ownArgument_slot] at hnames
        have hrole : b.slot.role ≠ .offset := by
          intro hrole
          rw [Slot.names, hrole] at hnames
          cases hnames
        rwa [Link.ownArgument_of_role_ne hrole]
  | @track n hop hargs =>
      rw [Link.command_track hop hargs]
      constructor
      · simp [hargs, Link.resolve_slot]
      · intro a ha hnames
        rw [List.mem_singleton.mp ha, Link.resolve_slot] at hnames
        cases hnames
  | @named m n hop hargs =>
      obtain ⟨r, hx, hslot, hr⟩ := crossReference?_of_named hop
      have hfirst : ∀ b : Argument, b.slot = .u16 → ∀ a ∈ [⟨.actor, .number m⟩, b],
          a.slot.names = true → a ∈ c.args := by
        intro b hb a ha hnames
        rw [hargs]
        simp only [List.mem_cons, List.not_mem_nil, or_false] at ha
        rcases ha with rfl | rfl
        · exact List.mem_cons_self
        · rw [hb] at hnames
          cases hnames
      rw [Link.command_named hx hslot hr hargs]
      split
      · exact ⟨by simp [hargs, Link.resolve_slot], hfirst _ (Link.resolve_slot _ _ _)⟩
      · exact ⟨by simp [hargs], hfirst _ rfl⟩

/-- Binding reports every actor, point and parameter it leaves unresolved once, and nothing else. -/
theorem length_bind_findings (hform : c.Form) (hargs : ∀ a ∈ c.args, a.Fits ∨ a.Settled)
    (hparam : ∀ b ∈ c.condition, ∀ a ∈ b.param, a.Settled) :
    (Compile.command source.layout index part (source.linked catalog id c)).2.length =
      (c.bindings (source.instruction catalog id index part c)).countP Operand.isUnresolved := by
  obtain ⟨hslots, hkept⟩ := linked_args_of_form catalog source id hform
  have hlength : c.args.length = (source.linked catalog id c).args.length := by
    simpa using (congrArg List.length hslots).symm
  have hnames : ∀ k, (c.namesAt k &&
      (source.instruction catalog id index part c).operands[k]?.any Operand.isUnresolved) =
        (source.linked catalog id c).args[k]?.any fun a => a.slot.names &&
          (Compile.operand source.layout a).1.isUnresolved := by
    intro k
    have hslot : c.args[k]?.map Argument.slot = (source.linked catalog id c).args[k]?.map
        Argument.slot := by
      rw [← List.getElem?_map, ← List.getElem?_map, hslots]
    have hat : c.namesAt k = (c.args[k]?.map Argument.slot).any Slot.names := by
      rw [Command.namesAt]
      cases c.args[k]? <;> rfl
    rw [hat, hslot, instruction_operands, List.getElem?_map]
    cases (source.linked catalog id c).args[k]? <;> simp
  have hoperands : ((source.linked catalog id c).args.flatMap fun a =>
      (Compile.operand source.layout a).2).length =
        (c.operandsAt (source.instruction catalog id index part c) c.namesAt).countP
          Operand.isUnresolved := by
    simp only [Command.countP_operandsAt, hnames, hlength]
    rw [countP_range_any]
    apply length_flatMap_of_one
    intro a ha
    apply operand_findings
    intro hn n hvalue
    -- An argument that names something is as it was read.
    rcases hargs a (hkept a ha hn) with h | h
    · unfold Argument.Fits at h
      rw [hvalue] at h
      exact h
    · unfold Argument.Settled at h
      rw [hvalue] at h
      exact h
  have hcondition : ((c.condition.map (Compile.condition source.layout)).toList.flatMap
      Prod.snd).length = ((source.instruction catalog id index part c).condition.bind
        BoundCondition.param).toList.countP Operand.isUnresolved := by
    rw [instruction_condition]
    cases hk : c.condition with
    | none => rfl
    | some k =>
        cases ha : k.param with
        | none => simp [Compile.condition_findings, Compile.condition_param, ha]
        | some a =>
            have hfound := (hparam k hk a ha).findings source.layout
            simp [Compile.condition_findings, Compile.condition_param, ha, hfound,
              List.countP_cons]
  have hcommand : (Compile.command source.layout index part (source.linked catalog id c)).2 =
      (c.condition.map (Compile.condition source.layout)).toList.flatMap Prod.snd ++
        (source.linked catalog id c).args.flatMap fun a => (Compile.operand source.layout a).2 := by
    simp [Compile.command, linked_condition, List.flatMap_map]
  rw [hcommand, List.length_append, hoperands, hcondition, Command.bindings, List.countP_append,
    Nat.add_comm]

/-! ### Scenes -/

/-- What is listed actor by actor, life before move, is listed script by script. -/
theorem flatMap_zipIdx_actors {β : Type} {f : ScriptId → List β}
    {g : ActorSource × Nat → List β}
    (h : ∀ actor a, source.actors[a]? = some actor → g (actor, a) = f (.life a) ++ f (.move a)) :
    source.actors.zipIdx.flatMap g = source.scriptIds.flatMap f := by
  have hg : source.actors.zipIdx.flatMap g =
      source.actors.zipIdx.flatMap fun x => f (.life x.2) ++ f (.move x.2) := by
    rw [List.flatMap_def, List.flatMap_def]
    apply congrArg List.flatten
    apply List.map_congr_left
    rintro ⟨actor, a⟩ hmem
    exact h actor a (List.mem_zipIdx_iff_getElem?.mp hmem)
  have hrange : source.actors.zipIdx.map Prod.snd = List.range source.actors.length := by
    rw [List.zipIdx_map_snd, List.range_eq_range']
  rw [hg, scriptIds, List.flatMap_assoc, ← hrange, List.flatMap_map]
  simp

/-- The findings of parsing a scene are those of its scripts. -/
theorem parseFindings_eq (catalog : Catalog) (source : SceneSource) :
    (parseActors catalog source.index source.actors).2 = source.scriptIds.flatMap fun id =>
      (source.bytes? id).toList.flatMap fun bytes =>
        (parseScript catalog source.index id bytes).2 := by
  simp only [parseActors, List.flatMap_map]
  apply flatMap_zipIdx_actors
  intro actor a ha
  simp [parseActor, bytes?, ScriptId.life, ScriptId.move, ha, ActorSource.bytes]

theorem toList_parsed (catalog : Catalog) (source : SceneSource) :
    (source.parsed catalog).toList =
      source.actors.zipIdx.map fun x => (parseActor catalog source.index x.2 x.1).1 := by
  simp [parsed, parseActors]

/-- The findings of linking a scene are those of its scripts. -/
theorem linkFindings_eq (catalog : Catalog) (source : SceneSource) :
    (linkScene source.index (source.parsed catalog)).2 = source.scriptIds.flatMap fun id =>
      (source.parsed? catalog id).toList.flatMap fun s =>
        (Link.script (source.parsed catalog) source.index s).2 := by
  simp only [linkScene, Array.toList_map, toList_parsed, List.flatMap_map, List.map_map]
  apply flatMap_zipIdx_actors
  intro actor a ha
  simp [Link.actor, parsed?, getElem?_parsed, ScriptId.life, ScriptId.move, ha, ParsedActor.script]

/-- The findings of binding a scene are those of its scripts. -/
theorem bindFindings_eq (catalog : Catalog) (source : SceneSource) :
    ((linkScene source.index (source.parsed catalog)).1.map
        (Compile.actor source.index source.layout)).toList.flatMap Prod.snd =
      source.scriptIds.flatMap fun id =>
        (source.parsed? catalog id).toList.flatMap fun s =>
          (Compile.script source.index source.layout
            (Link.script (source.parsed catalog) source.index s).1).2 := by
  simp only [linkScene, Array.toList_map, toList_parsed, List.flatMap_map, List.map_map]
  apply flatMap_zipIdx_actors
  intro actor a ha
  simp [Link.actor, Compile.actor, parsed?, getElem?_parsed, ScriptId.life, ScriptId.move, ha,
    ParsedActor.script]

theorem length_link_script (actors : Array ParsedActor) (scene : Nat) (s : ParsedScript) :
    (Link.script actors scene s).2.length =
      (s.commands.toList.flatMap fun c => (Link.command actors s.id c).2).length := by
  calc (Link.script actors scene s).2.length
      = ((s.commands.map (Link.command actors s.id)).toList.zipIdx.flatMap fun x => x.1.2).length :=
        length_flatMap_congr fun x _ => List.length_map _
    _ = ((s.commands.map (Link.command actors s.id)).toList.flatMap Prod.snd).length := by
        rw [flatMap_fst_zipIdx]
    _ = (s.commands.toList.flatMap fun c => (Link.command actors s.id c).2).length := by
        rw [Array.toList_map, List.flatMap_map]

theorem length_compile_script (scene : Nat) (layout : Layout) (s : LinkedScript) :
    (Compile.script scene layout s).2.length =
      (s.commands.toList.flatMap fun c => (Compile.command layout 0 none c).2).length := by
  have hbound : (Compile.script scene layout s).2.length =
      ((s.commands.toList.mapIdx fun k c => Compile.command layout k
        (Compile.partFrom (Compile.parts s) none 0 k) c).flatMap Prod.snd).length := by
    rw [← Array.toList_mapIdx, ← Compile.commands_script]
    exact length_flatMap_congr fun x _ => List.length_map _
  rw [hbound, List.mapIdx_eq_zipIdx_map, List.flatMap_map]
  exact congrArg List.length
    (flatMap_fst_zipIdx (fun c => (Compile.command layout 0 none c).2) s.commands.toList)

/-- The commands of a script stand beside their own instructions. -/
theorem compiledCommands_eq {s : ParsedScript} (hs : source.parsed? .standard id = some s) :
    source.compiledCommands id =
      s.commands.toList.zip (source.program .standard s).instructions.toList := by
  have hprogram : (compileScene .standard source).program? id =
      some (source.program .standard s) := by
    rw [program?_compileScene, hs, Option.map_some]
  rw [compiledCommands, hs, hprogram]

theorem map_fst_compiledCommands {s : ParsedScript} (hs : source.parsed? .standard id = some s) :
    (source.compiledCommands id).map Prod.fst = s.commands.toList := by
  rw [compiledCommands_eq hs, List.map_fst_zip]
  rw [Array.length_toList, Array.length_toList, size_instructions]

theorem instruction_of_mem_compiledCommands {s : ParsedScript}
    (hs : source.parsed? .standard id = some s) {i : Instruction}
    (h : (c, i) ∈ source.compiledCommands id) :
    c ∈ s.commands ∧ ∃ k, i = source.instruction .standard id k (s.part k) c := by
  rw [compiledCommands_eq hs] at h
  obtain ⟨k, hk⟩ := List.mem_iff_getElem?.mp h
  rw [List.getElem?_zip_eq_some, Array.getElem?_toList, Array.getElem?_toList,
    getElem?_instructions .standard source hs] at hk
  obtain ⟨hc, hi⟩ := hk
  rw [hc, Option.map_some, Option.some.injEq] at hi
  exact ⟨Array.mem_of_getElem? hc, k, hi.symm⟩

/-- Where the findings of every command are as many as its unresolved operands of some sort, so are
those of all scripts of a scene. -/
theorem length_eq_unresolved {β : Type} {f : ScriptId → ParsedScript → List Diagnostic}
    (found : ScriptId → Command → List β) {sort : Command → Instruction → List Operand}
    (hscript : ∀ id s, source.parsed? .standard id = some s →
      (f id s).length = (s.commands.toList.flatMap (found id)).length)
    (hcommand : ∀ id s, source.parsed? .standard id = some s → ∀ c ∈ s.commands, ∀ k,
      (found id c).length = (sort c (source.instruction .standard id k (s.part k) c)).countP
        Operand.isUnresolved) :
    (source.scriptIds.flatMap fun id =>
      (source.parsed? .standard id).toList.flatMap (f id)).length = source.unresolved sort := by
  apply length_flatMap_eq_countP
  intro id _
  cases hs : source.parsed? .standard id with
  | none => simp [compiledCommands, hs]
  | some s =>
      rw [Option.toList_some, List.flatMap_singleton, hscript id s hs,
        ← map_fst_compiledCommands hs, List.flatMap_map]
      apply length_flatMap_eq_countP
      rintro ⟨c, i⟩ hmem
      obtain ⟨hc, k, rfl⟩ := instruction_of_mem_compiledCommands hs hmem
      exact hcommand id s hs c hc k

theorem form_of_parsed? {s : ParsedScript} (hs : source.parsed? .standard id = some s)
    (hc : c ∈ s.commands) : c.Form ∧ (∀ a ∈ c.args, a.Fits ∨ a.Settled) ∧
      ∀ b ∈ c.condition, ∀ a ∈ b.param, a.Settled := by
  rw [parsed?_eq, Option.map_eq_some_iff] at hs
  obtain ⟨bytes, -, rfl⟩ := hs
  exact ⟨form_of_mem hc, parseScript_settled hc⟩

/-- Parsing reports every script it cuts short once. -/
theorem length_parseFindings (source : SceneSource) :
    (parseActors .standard source.index source.actors).2.length = source.truncated := by
  rw [parseFindings_eq, truncated]
  apply length_flatMap_of_one
  intro id _
  rw [parsed?_eq]
  cases source.bytes? id with
  | none => rfl
  | some bytes =>
      obtain ⟨s, stop, -, he⟩ := parseScript_eq .standard source.index id bytes
      simp only [Option.toList_some, List.flatMap_singleton, Option.map_some, Option.any_some, he]
      cases stop <;> rfl

/-- Linking reports every reference it leaves unresolved once. -/
theorem length_linkFindings (source : SceneSource) :
    (linkScene source.index (source.parsed .standard)).2.length =
      source.unresolved Command.references := by
  rw [linkFindings_eq]
  apply length_eq_unresolved fun id c => (Link.command (source.parsed .standard) id c).2
  · intro id s hs
    rw [length_link_script, parsed?_id .standard source hs]
  · intro id s hs c hc k
    exact (linkCounts_of_form (form_of_parsed? hs hc).1).1

/-- Binding reports everything it leaves unresolved once. -/
theorem length_bindFindings (source : SceneSource) :
    (((linkScene source.index (source.parsed .standard)).1.map
        (Compile.actor source.index source.layout)).toList.flatMap Prod.snd).length =
      source.unresolved Command.bindings := by
  rw [bindFindings_eq]
  apply length_eq_unresolved fun id c =>
    (Compile.command source.layout 0 none (source.linked .standard id c)).2
  · intro id s hs
    have hcommands : (Link.script (source.parsed .standard) source.index s).1.commands.toList =
        s.commands.toList.map (source.linked .standard id) := by
      simp only [Link.script, parsed?_id .standard source hs, Array.toList_map, List.map_map]
      rfl
    rw [length_compile_script, hcommands, List.flatMap_map]
  · intro id s hs c hc k
    obtain ⟨hform, hargs, hparam⟩ := form_of_parsed? hs hc
    exact length_bind_findings hform hargs hparam

/-! ### Errors and warnings -/

theorem severity_of_mem_parseFindings {d : Diagnostic}
    (h : d ∈ (parseActors catalog source.index source.actors).2) : d.severity = .error := by
  obtain ⟨id, bytes, -, hd⟩ := (mem_parseActors_findings_iff catalog source d).mp h
  obtain ⟨s, stop, -, he⟩ := parseScript_eq catalog source.index id bytes
  rw [he] at hd
  obtain ⟨f, -, rfl⟩ := List.mem_map.mp hd
  rfl

theorem severity_of_mem_linkFindings {d : Diagnostic}
    (h : d ∈ (linkScene source.index (source.parsed .standard)).2) : d.severity = .warning := by
  obtain ⟨id, s, hs, hd⟩ := (mem_linkScene_findings_iff .standard source d).mp h
  obtain ⟨k, c, hc, issue, hissue, rfl⟩ := (Link.mem_script_findings_iff _ _ _ _).mp hd
  rw [parsed?_id .standard source hs] at hissue
  have hform := (form_of_parsed? hs (Array.mem_of_getElem? hc)).1
  have hcounts : source.LinkCounts .standard id (source.instruction .standard id 0 none c) c :=
    linkCounts_of_form hform
  exact hcounts.2 issue hissue

theorem severity_of_mem_bindFindings {d : Diagnostic}
    (h : d ∈ ((linkScene source.index (source.parsed catalog)).1.map
      (Compile.actor source.index source.layout)).toList.flatMap Prod.snd) :
    d.severity = .error := by
  obtain ⟨id, s, -, hd⟩ := (mem_bound_findings_iff catalog source d).mp h
  obtain ⟨k, c, -, issue, -, rfl⟩ := (Compile.mem_script_findings_iff _ _ _ _).mp hd
  rfl

theorem countP_severity {ds : List Diagnostic} {severity : Severity}
    (h : ∀ d ∈ ds, d.severity = severity) (other : Severity) :
    (ds.countP fun d => d.severity == other) = if severity = other then ds.length else 0 := by
  split
  · next heq =>
      rw [List.countP_eq_length]
      intro d hd
      rw [h d hd, heq]
      exact beq_self_eq_true other
  · next hne =>
      rw [List.countP_eq_zero]
      intro d hd
      rw [h d hd]
      simpa using hne

/-- The warnings of a scene are those of linking, its errors those of parsing and binding. -/
theorem totals_eq (source : SceneSource) :
    (compileScene .standard source).diagnostics.warnings.total =
        source.unresolved Command.references ∧
      (compileScene .standard source).diagnostics.errors.total =
        source.truncated + source.unresolved Command.bindings := by
  have hparse := countP_severity fun d (hd : d ∈ (parseActors .standard source.index
    source.actors).2) => severity_of_mem_parseFindings hd
  have hlink := countP_severity fun d (hd : d ∈ (linkScene source.index
    (source.parsed .standard)).2) => severity_of_mem_linkFindings hd
  have hbind := countP_severity fun d (hd : d ∈ ((linkScene source.index
    (source.parsed .standard)).1.map (Compile.actor source.index source.layout)).toList.flatMap
      Prod.snd) => severity_of_mem_bindFindings hd
  rw [length_parseFindings] at hparse
  rw [length_linkFindings] at hlink
  rw [length_bindFindings] at hbind
  have hfindings : source.findings .standard =
      (parseActors .standard source.index source.actors).2 ++
        (linkScene source.index (source.parsed .standard)).2 ++
        ((linkScene source.index (source.parsed .standard)).1.map
          (Compile.actor source.index source.layout)).toList.flatMap Prod.snd := rfl
  obtain ⟨herrors, hwarnings⟩ := DiagnosticLog.totals_pushAll .empty (source.findings .standard)
  rw [compileScene_diagnostics, herrors, hwarnings, hfindings]
  simp only [List.countP_append, hparse, hlink, hbind, reduceCtorEq, if_true, if_false]
  exact ⟨by simp [DiagnosticLog.empty], by simp [DiagnosticLog.empty]⟩

/-! ### Nothing unresolved -/

theorem mem_scriptIds_of_parsed? {s : ParsedScript}
    (hs : source.parsed? catalog id = some s) : id ∈ source.scriptIds := by
  have hlt : id.actor < source.actors.length := by
    rw [← Nat.not_le]
    intro hge
    rw [parsed?_eq_none hge] at hs
    cases hs
  obtain ⟨a, kind⟩ := id
  refine List.mem_flatMap.mpr ⟨a, List.mem_range.mpr hlt, ?_⟩
  cases kind <;> simp [ScriptId.life, ScriptId.move]

/-- No script of a scene was cut short, and no operand and no parameter of a condition is left
unresolved in any of its programs. -/
structure FullyResolved (source : SceneSource) : Prop where
  whole : ∀ id s, source.parsed? .standard id = some s → s.truncatedAt = none
  operands : ∀ id p, (compileScene .standard source).program? id = some p →
    ∀ i ∈ p.instructions, ∀ o ∈ i.operands, o.isUnresolved = false
  params : ∀ id p, (compileScene .standard source).program? id = some p →
    ∀ i ∈ p.instructions, ∀ b o, i.condition = some b → b.param = some o → o.isUnresolved = false

/-- Where nothing is unresolved, nothing is counted: an operand of any sort is one of the operands
of an instruction, or the parameter of its condition. -/
theorem FullyResolved.unresolved_eq_zero (h : source.FullyResolved)
    {sort : Command → Instruction → List Operand}
    (hsort : ∀ c i, ∀ o ∈ sort c i, o ∈ i.operands ∨ i.condition.bind BoundCondition.param = some o) :
    source.unresolved sort = 0 := by
  rw [unresolved, List.countP_eq_zero]
  intro o ho
  obtain ⟨id, -, ho⟩ := List.mem_flatMap.mp ho
  obtain ⟨⟨c, i⟩, hmem, ho⟩ := List.mem_flatMap.mp ho
  unfold compiledCommands at hmem
  split at hmem
  · next s p hs hp =>
      have hi : i ∈ p.instructions := Array.mem_toList_iff.mp (List.of_mem_zip hmem).2
      rcases hsort c i o ho with ho | ho
      · simp [h.operands id p hp i hi o ho]
      · obtain ⟨b, hb, hparam⟩ := Option.bind_eq_some_iff.mp ho
        simp [h.params id p hp i hi b o hb hparam]
  · cases hmem

theorem mem_operands_of_mem_operandsAt {i : Instruction} {place : Nat → Bool} {o : Operand}
    (h : o ∈ c.operandsAt i place) : o ∈ i.operands := by
  obtain ⟨k, -, hk⟩ := List.mem_filterMap.mp h
  exact List.mem_of_getElem? hk

theorem FullyResolved.counts (h : source.FullyResolved) :
    source.truncated = 0 ∧ source.unresolved Command.references = 0 ∧
      source.unresolved Command.bindings = 0 := by
  refine ⟨?_, ?_, ?_⟩
  · rw [truncated, List.countP_eq_zero]
    intro id _
    cases hs : source.parsed? .standard id with
    | none => simp
    | some s => simp [h.whole id s hs]
  · exact h.unresolved_eq_zero fun c i o ho => .inl (mem_operands_of_mem_operandsAt ho)
  · apply h.unresolved_eq_zero
    intro c i o ho
    rcases List.mem_append.mp ho with ho | ho
    · exact .inl (mem_operands_of_mem_operandsAt ho)
    · exact .inr (Option.mem_toList.mp ho)

/-- Without findings, nothing is unresolved. -/
theorem fullyResolved_of_findings_eq_nil (hnil : source.findings .standard = []) :
    source.FullyResolved := by
  have hinstruction : ∀ id p, (compileScene .standard source).program? id = some p →
      ∀ i ∈ p.instructions, ∀ n : Int, .unresolved n ∉ i.operands ∧
        ∀ b, i.condition = some b → b.param ≠ some (.unresolved n) := by
    intro id p hp i hi n
    rw [program?_compileScene, Option.map_eq_some_iff] at hp
    obtain ⟨s, hs, rfl⟩ := hp
    obtain ⟨k, hk⟩ := Array.mem_iff_getElem?.mp hi
    exact resolved_of_findings_eq_nil hnil hs hk n
  refine ⟨?_, ?_, ?_⟩
  · intro id s hs
    have hparse : (parseActors .standard source.index source.actors).2 = [] := by
      unfold findings at hnil
      exact (List.append_eq_nil_iff.mp (List.append_eq_nil_iff.mp hnil).1).1
    have hcount := length_parseFindings source
    rw [hparse, truncated, List.length_nil, eq_comm, List.countP_eq_zero] at hcount
    have hwhole := hcount id (mem_scriptIds_of_parsed? hs)
    rw [hs] at hwhole
    simpa using hwhole
  · intro id p hp i hi o ho
    cases o with
    | unresolved n => exact absurd ho (hinstruction id p hp i hi n).1
    | _ => rfl
  · intro id p hp i hi b o hb ho
    cases o with
    | unresolved n => exact absurd ho ((hinstruction id p hp i hi n).2 b hb)
    | _ => rfl

/-- **Everything left unresolved is reported, and reported once.** In the log of a scene compiled
with the standard catalog the warnings are as many as there are unresolved references, and the
errors as many as there are scripts cut short, unresolved actors and points, and unresolved
parameters of conditions. So the log is empty exactly when no script was cut short and nothing is
unresolved. -/
theorem totals_compileScene (source : SceneSource) :
    let log := (compileScene .standard source).diagnostics
    log.warnings.total = source.unresolved Command.references ∧
      log.errors.total = source.truncated + source.unresolved Command.bindings ∧
      (log.isEmpty = true ↔ source.FullyResolved) := by
  intro log
  obtain ⟨hwarnings, herrors⟩ := totals_eq source
  refine ⟨hwarnings, herrors, ?_, ?_⟩
  · intro hempty
    have hnil : source.findings .standard = [] := by
      rw [← DiagnosticLog.isEmpty_pushAll_iff, ← compileScene_diagnostics]
      exact hempty
    exact fullyResolved_of_findings_eq_nil hnil
  · intro hresolved
    obtain ⟨htruncated, hreferences, hbindings⟩ := hresolved.counts
    have herror : log.errors.total = 0 := herrors.trans (by omega)
    have hwarning : log.warnings.total = 0 := hwarnings.trans hreferences
    rw [DiagnosticLog.isEmpty, herror, hwarning]
    rfl

/-- A script that sends an actor outside the scene to a behavior, jumps to a byte it does not have,
and is cut short: two references, one actor and one script. -/
example :
    let source : SceneSource := { actors := [{ life := [0x22, 5, 0, 0, 0x0F, 9, 0, 0xFF] }] }
    source.unresolved Command.references = 2 ∧ source.unresolved Command.bindings = 1 ∧
      source.truncated = 1 := by
  decide +kernel

end SceneSource

end SceneScript
