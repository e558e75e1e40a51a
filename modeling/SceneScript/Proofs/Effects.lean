import Mathlib.Tactic.Common
import SceneScript.Proofs.Instructions

/-! # What one instruction does

Executing an instruction has one of three outcomes (`Acts`, `Executes.execute`).

* `effect`: it goes on with a flow and changes the state of at most one script. `Effect` lists the
  flows and changes there are, with the operands they are taken from.
* `fault`: it fails, and no state and no scratch record is changed. `Fails` lists the reasons there
  are: what its operation demands is not there, or the value a label compares is not, or the game
  refused to answer.
* `hosted`: the command was the game's, and its reply replaces the states of the calling actor. -/

namespace SceneScript

/-! ### Results and final worlds -/

namespace Exec

variable {σ α β : Type}

/-- Started in a world, an action ends with a result and a world that satisfy `Q`. -/
def Ends (x : Exec σ α) (w : World σ) (Q : Except Fault α → World σ → Prop) : Prop :=
  match x.run w with
  | (r, after) => Q r after

theorem ends_get {w : World σ} {Q : Except Fault (World σ) → World σ → Prop} :
    (get : Exec σ (World σ)).Ends w Q ↔ Q (.ok w) w := Iff.rfl

/-- A sequence ends as its second part does, or with the fault of its first. -/
theorem ends_bind {x : Exec σ α} {f : α → Exec σ β} {w : World σ}
    {Q : Except Fault β → World σ → Prop} :
    (x >>= f).Ends w Q ↔ x.Ends w fun r after =>
      match r with
      | .ok a => (f a).Ends after Q
      | .error e => Q (.error e) after := by
  have e : (x >>= f).run w =
      match x.run w with
      | (r, after) => ExceptT.bindCont f r after := rfl
  unfold Ends
  rw [e]
  rcases x.run w with ⟨r | r, after⟩ <;> rfl

theorem run_bind {x : Exec σ α} {f : α → Exec σ β} {w after : World σ} {a : α}
    (h : x.run w = (.ok a, after)) : (x >>= f).run w = (f a).run after := by
  have e : (x >>= f).run w = (fun p => ExceptT.bindCont f p.1 p.2) (x.run w) := rfl
  rw [e, h]
  rfl

theorem Ends.imp {x : Exec σ α} {w : World σ} {P Q : Except Fault α → World σ → Prop}
    (h : x.Ends w P) (himp : ∀ r after, P r after → Q r after) : x.Ends w Q :=
  himp _ _ h

end Exec

/-! ### States of scripts -/

/-- The state of a script. -/
def scriptAt (states : Array ActorState) (id : ScriptId) : ScriptState :=
  (states.getD id.actor {}).get id.kind

/-- The states with that of one script changed. -/
def modifyScript (states : Array ActorState) (id : ScriptId) (f : ScriptState → ScriptState) :
    Array ActorState :=
  states.modify id.actor fun a => a.modify id.kind f

@[simp] theorem size_modifyScript (states : Array ActorState) (script : ScriptId)
    (f : ScriptState → ScriptState) : (modifyScript states script f).size = states.size := by
  simp [modifyScript]

theorem modifyScript_id (states : Array ActorState) (script : ScriptId) :
    modifyScript states script id = states := by
  have h : (fun a : ActorState => a.modify script.kind id) = id := by
    funext a
    cases script.kind <;> rfl
  rw [modifyScript, h]
  apply Array.ext_getElem?
  intro a
  rw [Array.getElem?_modify]
  split <;> simp

theorem modifyScript_modifyScript (states : Array ActorState) (script : ScriptId)
    (f g : ScriptState → ScriptState) :
    modifyScript (modifyScript states script f) script g =
      modifyScript states script fun s => g (f s) := by
  apply Array.ext_getElem?
  intro a
  simp only [modifyScript, Array.getElem?_modify]
  split
  · cases script.kind <;> cases states[a]? <;> rfl
  · rfl

theorem scriptAt_modifyScript_self {states : Array ActorState} {id : ScriptId}
    (h : id.actor < states.size) (f : ScriptState → ScriptState) :
    scriptAt (modifyScript states id f) id = f (scriptAt states id) := by
  simp only [scriptAt, modifyScript, Array.getD_eq_getD_getElem?, Array.getElem?_modify, if_true,
    Array.getElem?_eq_getElem h, Option.map_some, Option.getD_some, ActorState.get_modify_self]

/-- A script that runs is one of an actor of the scene. -/
theorem actor_lt_of_running {states : Array ActorState} {id : ScriptId}
    (h : (scriptAt states id).running = true) : id.actor < states.size := by
  by_contra hlt
  have hnone : scriptAt states id = {} := by
    rw [scriptAt, Array.getD_eq_getD_getElem?, Array.getElem?_eq_none (Nat.le_of_not_lt hlt)]
    cases id.kind <;> rfl
  rw [hnone] at h
  cases h

theorem scriptAt_modifyScript_of_ne {states : Array ActorState} {id other : ScriptId}
    (h : other ≠ id) (f : ScriptState → ScriptState) :
    scriptAt (modifyScript states id f) other = scriptAt states other := by
  obtain ⟨a, kind⟩ := id
  obtain ⟨b, kind'⟩ := other
  simp only [scriptAt, modifyScript, Array.getD_eq_getD_getElem?, Array.getElem?_modify]
  split
  · next hab =>
      subst hab
      have hkind : kind' = kind.sibling := by cases kind <;> cases kind' <;> simp_all [ScriptKind.sibling]
      cases states[a]? <;> simp [hkind]
  · rfl

theorem scriptAt_modifyScript_cases (states : Array ActorState) (script : ScriptId)
    (f : ScriptState → ScriptState) (id : ScriptId) :
    scriptAt (modifyScript states script f) id = scriptAt states id ∨
      id = script ∧ scriptAt (modifyScript states script f) id = f (scriptAt states script) := by
  by_cases hid : id = script
  · subst hid
    rcases Nat.lt_or_ge id.actor states.size with h | h
    · exact .inr ⟨rfl, scriptAt_modifyScript_self h f⟩
    · left
      simp [scriptAt, modifyScript, Array.getD_eq_getD_getElem?, Array.getElem?_modify,
        Array.getElem?_eq_none h]
  · exact .inl (scriptAt_modifyScript_of_ne hid f)

theorem scriptAt_modify_cases (states : Array ActorState) (a : Nat) (f : ActorState → ActorState)
    (id : ScriptId) :
    scriptAt (states.modify a f) id = scriptAt states id ∨
      id.actor = a ∧ scriptAt (states.modify a f) id = (f (states.getD a {})).get id.kind := by
  simp only [scriptAt, Array.getD_eq_getD_getElem?, Array.getElem?_modify]
  split
  · next ha =>
      subst ha
      cases hs : states[id.actor]? with
      | none => exact .inl rfl
      | some old => exact .inr ⟨rfl, rfl⟩
  · exact .inl rfl

/-- The state of the script that runs at a site. -/
def Site.own (site : Site) (states : Array ActorState) : ScriptState :=
  scriptAt states site.script

/-! ### Faults -/

/-- The reasons for which an instruction fails: one for each thing an operation can demand, the
missing value of a switch, and the failures of the game. -/
inductive Fails (site : Site) (i : Instruction) (states : Array ActorState) : Fault → Prop
  | target {k : Nat} {flaw : Flaw} : i.operation.targetSlot? = some k →
      i.targetAt k = .error flaw → Fails site i states (.broken i.label flaw)
  | actor {flaw : Flaw} : i.operation.namesActor = true →
      actorOperand states.size i.operands[0]? = .error flaw →
      Fails site i states (.broken i.label flaw)
  | condition {flaw : Flaw} : i.operation.asksCondition = true → i.predicate = .error flaw →
      Fails site i states (.broken i.label flaw)
  | param {k : BoundCondition} {flaw : Flaw} : i.condition = some k →
      k.predicate.source = .actorTrack → actorOperand states.size k.param = .error flaw →
      Fails site i states (.broken i.label flaw)
  | test {flaw : Flaw} : i.operation.compares = true → i.comparison = .error flaw →
      Fails site i states (.broken i.label flaw)
  | number {flaw : Flaw} : i.operation.counts = true → i.numberAt 0 = .error flaw →
      Fails site i states (.broken i.label flaw)
  | record : i.operation.remembers = true → i.opcode.needsCallState = false →
      Fails site i states (.broken i.label .noCallState)
  | switchValue : i.operation = .caseArm ∨ i.operation = .orCaseArm →
      (site.own states).switchValue = none → Fails site i states (.broken i.label .noSwitchValue)
  | host (e : HostError) : Fails site i states (.host i.label e)

/-! ### Reading -/

/-- An action that only reads: it leaves states and scratch record alone, its result satisfies `P`,
and its fault is a reason for which the instruction fails. -/
def Reads {σ α : Type} (site : Site) (i : Instruction) (states : Array ActorState) (c : CallState)
    (x : Exec σ α) (P : α → Prop) : Prop :=
  ∀ h, x.Ends ⟨states, c, h⟩ fun r after => after.states = states ∧ after.callState = c ∧
    match r with
    | .ok a => P a
    | .error fault => Fails site i states fault

namespace Reads

variable {σ α β : Type} {site : Site} {i : Instruction} {states : Array ActorState} {c : CallState}

theorem pure {a : α} {P : α → Prop} (h : P a) :
    Reads site i states c (Pure.pure a : Exec σ α) P :=
  fun _ => ⟨rfl, rfl, h⟩

theorem throw {fault : Fault} {P : α → Prop} (h : Fails site i states fault) :
    Reads site i states c (MonadExcept.throw fault : Exec σ α) P :=
  fun _ => ⟨rfl, rfl, h⟩

theorem bind {x : Exec σ α} {f : α → Exec σ β} {P : α → Prop} {Q : β → Prop}
    (hx : Reads site i states c x P) (hf : ∀ a, P a → Reads site i states c (f a) Q) :
    Reads site i states c (x >>= f) Q := by
  intro h
  rw [Exec.ends_bind]
  refine (hx h).imp ?_
  rintro (fault | a) ⟨after, record, host⟩ ⟨rfl, rfl, hr⟩
  · exact ⟨rfl, rfl, hr⟩
  · exact hf a hr host

/-- A checked operand is what its check let through. -/
theorem demand {r : Except Flaw α} {P : α → Prop} (hok : ∀ a, r = .ok a → P a)
    (herror : ∀ flaw, r = .error flaw → Fails site i states (.broken i.label flaw)) :
    Reads site i states c (Step.demand i r : Exec σ α) P := by
  cases r with
  | ok a => exact pure (hok a rfl)
  | error flaw => exact throw (herror flaw rfl)

theorem target {k : Nat} (hk : i.operation.targetSlot? = some k) :
    Reads site i states c (Step.demand i (i.targetAt k) : Exec σ Nat) fun t =>
      i.operands[k]? = some (.target t) := by
  refine demand ?_ fun flaw h => .target hk h
  intro t ht
  unfold Instruction.targetAt at ht
  split at ht
  · cases ht
    assumption
  · cases ht
  · cases ht

theorem actor_ok {count a : Nat} {o : Option Operand} (h : actorOperand count o = .ok a) :
    o = some (.actor a) ∧ a < count := by
  unfold actorOperand at h
  split at h
  · split at h
    · cases h
      exact ⟨rfl, by assumption⟩
    · cases h
  · cases h
  · cases h

theorem actorOf {o : Option Operand}
    (h : ∀ flaw, actorOperand states.size o = .error flaw →
      Fails site i states (.broken i.label flaw)) :
    Reads site i states c (Step.actorOf i o : Exec σ Nat) fun a =>
      o = some (.actor a) ∧ a < states.size := by
  intro w
  unfold Step.actorOf
  rw [Exec.ends_bind, Exec.ends_get]
  exact demand (fun a ha => actor_ok ha) h w

theorem namedActor (hn : i.operation.namesActor = true) :
    Reads site i states c (Step.actorOf i i.operands[0]? : Exec σ Nat) fun a =>
      i.operands[0]? = some (.actor a) ∧ a < states.size :=
  actorOf fun _ h => .actor hn h

theorem predicate (hc : i.operation.asksCondition = true) :
    Reads site i states c (Step.demand i i.predicate : Exec σ BoundCondition) fun k =>
      i.condition = some k := by
  refine demand ?_ fun flaw h => .condition hc h
  intro k hk
  unfold Instruction.predicate at hk
  split at hk
  · cases hk
    assumption
  · cases hk

theorem comparison (hc : i.operation.compares = true) :
    Reads site i states c (Step.demand i i.comparison : Exec σ BoundTest) fun _ => True :=
  demand (fun _ _ => trivial) fun _ h => .test hc h

theorem number (hc : i.operation.counts = true) :
    Reads site i states c (Step.demand i (i.numberAt 0) : Exec σ Int) fun n =>
      i.operands[0]? = some (.number n) := by
  refine demand ?_ fun flaw h => .number hc h
  intro n hn
  unfold Instruction.numberAt at hn
  split at hn
  · next m hm =>
      cases hn
      obtain ⟨o, ho, hnumber⟩ := Option.bind_eq_some_iff.mp hm
      cases o <;> simp [Operand.number?] at hnumber
      rw [ho, hnumber]
  · cases hn

theorem own : Reads site i states c (Step.own site : Exec σ ScriptState) fun s =>
    s = site.own states :=
  fun _ => ⟨rfl, rfl, rfl⟩

theorem callState (hr : i.operation.remembers = true) :
    Reads site i states c (Step.callState i : Exec σ CallState) fun s => s = c := by
  unfold Step.callState
  split
  · exact fun _ => ⟨rfl, rfl, rfl⟩
  · next hneeds => exact throw (.record hr (by simpa using hneeds))

/-- Evaluating a condition asks the game or looks at a track. -/
theorem evaluate {host : Host σ} {k : BoundCondition} (hk : i.condition = some k) :
    Reads site i states c (Step.evaluate host site i k) fun _ => True := by
  unfold Step.evaluate
  split
  · exact fun _ => ⟨rfl, rfl, trivial⟩
  · next hs => exact (actorOf fun _ h => .param hk hs h).bind fun _ _ _ => ⟨rfl, rfl, trivial⟩
  · intro w
    refine ⟨rfl, rfl, ?_⟩
    dsimp only
    cases (host.evaluate _ w).1 with
    | ok n => trivial
    | error e => exact .host e

theorem test {host : Host σ} (ha : i.operation.asksCondition = true)
    (hc : i.operation.compares = true) :
    Reads site i states c (Step.test host site i) fun _ => True := by
  refine (predicate ha).bind fun k hk => ?_
  refine (evaluate hk).bind fun value _ => ?_
  exact (comparison hc).bind fun t _ => pure trivial

end Reads

/-! ### Effects -/

/-- The flows with which an instruction of the engine goes on, with the script whose state it
changes and the change. -/
inductive Effect (site : Site) (i : Instruction) (states : Array ActorState) :
    Flow → ScriptId → (ScriptState → ScriptState) → Prop
  | advance : Effect site i states .advance site.script id
  | jump {t : Nat} : i.operation.targetSlot? = some 0 → Link.crossReference? i.operation = none →
      i.operands[0]? = some (.target t) → Effect site i states (.jump t) site.script id
  | goto {t : Nat} : i.operation = .goto → i.operands[0]? = some (.target t) →
      Effect site i states (.yieldTo t) site.script id
  | stop : Effect site i states .terminate site.script id
  | wait : Effect site i states .suspend site.script id
  | openSwitch (v : Int) : i.operation = .switch →
      Effect site i states .advance site.script fun s => { s with switchValue := some v }
  | closeSwitch : i.operation = .endSwitch →
      Effect site i states .advance site.script fun s => { s with switchValue := none }
  | enterBehavior : i.operation = .behaviour →
      Effect site i states .advance site.script fun s =>
        { s with behaviorOffset := some site.offset }
  | chooseBehavior {t : Nat} : i.operation = .setBehaviour → i.operands[0]? = some (.target t) →
      Effect site i states .advance site.script fun s => { s with nextBehavior := some t }
  | endBehavior :
      Effect site i states
        (.yieldTo (((site.own states).nextBehavior.or (site.own states).behaviorOffset).getD 0))
        site.script fun s => { s with nextBehavior := none }
  | sendBehavior {a t : Nat} : i.operation = .setBehaviourObj →
      i.operands[0]? = some (.actor a) → i.operands[1]? = some (.target t) →
      Effect site i states .advance (.life a) fun s => { s with reentry := some t }
  | saveBehavior : i.operation = .saveBehaviour →
      Effect site i states .advance site.script Step.saveBehavior
  | saveBehaviorOf {a : Nat} : i.operation = .saveBehaviourObj →
      i.operands[0]? = some (.actor a) →
      Effect site i states .advance (.life a) Step.saveBehavior
  | returnBehavior {t : Nat} : (site.own states).savedOffset = some t →
      Effect site i states (.yieldTo t) site.script id
  | resumeBehavior {a t : Nat} : i.operation = .restoreBehaviourObj →
      i.operands[0]? = some (.actor a) → (scriptAt states (.life a)).savedOffset = some t →
      Effect site i states .advance (.life a) fun s => { s with reentry := some t }
  | declareTrack {n : Int} : i.operation = .track → i.operands[0]? = some (.number n) →
      Effect site i states .advance site.script fun s =>
        { s with track := some n, trackOffset := some site.offset }
  | sendTrack {t : Nat} : i.operation = .setTrack → i.operands[0]? = some (.target t) →
      Effect site i states .advance (.move site.script.actor) fun s => { s with reentry := some t }
  | sendTrackOf {a t : Nat} : i.operation = .setTrackObj → i.operands[0]? = some (.actor a) →
      i.operands[1]? = some (.target t) →
      Effect site i states .advance (.move a) fun s => { s with reentry := some t }
  | stopTrack : i.operation = .stopCurrentTrack →
      Effect site i states .advance (.move site.script.actor) Step.stopTrack
  | stopTrackOf {a : Nat} : i.operation = .stopCurrentTrackObj → i.operands[0]? = some (.actor a) →
      Effect site i states .advance (.move a) Step.stopTrack
  | resumeTrack : i.operation = .restoreLastTrack →
      Effect site i states .advance (.move site.script.actor) Step.restoreTrack
  | resumeTrackOf {a : Nat} : i.operation = .restoreLastTrackObj →
      i.operands[0]? = some (.actor a) →
      Effect site i states .advance (.move a) Step.restoreTrack

/-- No instruction moves a script or stops it by changing its state. -/
theorem Effect.keeps {site : Site} {i : Instruction} {states : Array ActorState} {flow : Flow}
    {script : ScriptId} {f : ScriptState → ScriptState}
    (he : Effect site i states flow script f) (s : ScriptState) :
    (f s).running = s.running ∧ (f s).offset = s.offset := by
  cases he with
  | resumeTrack | resumeTrackOf => cases h : s.savedOffset <;> simp [Step.restoreTrack, h]
  | _ => exact ⟨rfl, rfl⟩

/-- Whether the game executes an instruction. -/
def Operation.isHosted : Operation → Bool
  | .setDirMode | .setDirModeObj | .host => true
  | _ => false

/-- What executing an instruction comes to, with the states and the scratch record before. -/
inductive Acts {σ : Type} (host : Host σ) (site : Site) (i : Instruction)
    (states : Array ActorState) (c : CallState) : Except Fault Flow → World σ → Prop
  | effect {flow : Flow} {script : ScriptId} {f : ScriptState → ScriptState} {after : World σ} :
      Effect site i states flow script f → after.states = modifyScript states script f →
      (i.operation.remembers = false → after.callState = c) →
      Acts host site i states c (.ok flow) after
  | fault {fault : Fault} {after : World σ} : Fails site i states fault →
      after.states = states → after.callState = c → Acts host site i states c (.error fault) after
  | hosted {call : HostCall} {h : σ} {after : World σ} : i.operation.isHosted = true →
      call.actor = states.getD site.script.actor {} →
      after.states = states.modify site.script.actor (fun _ => (host.execute call h).1.actor) →
      Acts host site i states c ((host.execute call h).1.flow.mapError (.host i.label)) after

theorem Acts.size {σ : Type} {host : Host σ} {site : Site} {i : Instruction}
    {states : Array ActorState} {c : CallState} {result : Except Fault Flow} {after : World σ}
    (h : Acts host site i states c result after) : after.states.size = states.size := by
  cases h with
  | effect _ h _ => simp [h]
  | fault _ h _ => simp [h]
  | hosted _ _ h => simp [h]

/-- An action that is one of an instruction's outcomes, whatever the state of the game. -/
def Executes {σ : Type} (host : Host σ) (site : Site) (i : Instruction)
    (states : Array ActorState) (c : CallState) (x : Exec σ Flow) : Prop :=
  ∀ h, x.Ends ⟨states, c, h⟩ (Acts host site i states c)

namespace Executes

variable {σ α : Type} {host : Host σ} {site : Site} {i : Instruction} {states : Array ActorState}
  {c : CallState}

theorem bind {x : Exec σ α} {f : α → Exec σ Flow} {P : α → Prop}
    (hx : Reads site i states c x P) (hf : ∀ a, P a → Executes host site i states c (f a)) :
    Executes host site i states c (x >>= f) := by
  intro h
  rw [Exec.ends_bind]
  refine (hx h).imp ?_
  rintro (fault | a) ⟨after, record, game⟩ ⟨rfl, rfl, hr⟩
  · exact .fault hr rfl rfl
  · exact hf a hr game

/-- Nothing but the flow. -/
theorem pure {flow : Flow} (h : Effect site i states flow site.script id) :
    Executes host site i states c (Pure.pure flow) :=
  fun _ => .effect h (modifyScript_id states site.script).symm fun _ => rfl

theorem fault {f : Fault} (h : Fails site i states f) :
    Executes host site i states c (throw f : Exec σ Flow) :=
  fun _ => .fault h rfl rfl

/-- A change of one script. -/
theorem modify {flow : Flow} {script : ScriptId} {f : ScriptState → ScriptState}
    (h : Effect site i states flow script f) :
    Executes host site i states c (do
      MonadState.modifyGet fun w : World σ => ((), w.modifyScript script f)
      Pure.pure flow) :=
  fun _ => .effect h rfl fun _ => rfl

/-- A change of the scratch record. -/
theorem remember {flow : Flow} {record : CallState} (hr : i.operation.remembers = true)
    (h : Effect site i states flow site.script id) :
    Executes host site i states c (do
      Step.setCallState record
      Pure.pure flow) := by
  intro _
  refine .effect h (modifyScript_id states site.script).symm ?_
  intro hf
  rw [hr] at hf
  cases hf

theorem branch {t : Nat} (b : Bool) (hk : i.operation.targetSlot? = some 0)
    (hx : Link.crossReference? i.operation = none) (ht : i.operands[0]? = some (.target t)) :
    Effect site i states (Step.branch b t) site.script id := by
  unfold Step.branch
  split
  · exact .jump hk hx ht
  · exact .advance

/-! ### Conditionals and switches -/

theorem jumpUnless (hk : i.operation.targetSlot? = some 0)
    (hx : Link.crossReference? i.operation = none) (ha : i.operation.asksCondition = true)
    (hc : i.operation.compares = true) :
    Executes host site i states c (Step.jumpUnless host site i) := by
  refine bind (.target hk) fun t ht => ?_
  refine bind (.test ha hc) fun passed _ => ?_
  exact pure (branch (!passed) hk hx ht)

theorem jumpIf (hk : i.operation.targetSlot? = some 0)
    (hx : Link.crossReference? i.operation = none) (ha : i.operation.asksCondition = true)
    (hc : i.operation.compares = true) :
    Executes host site i states c (Step.jumpIf host site i) := by
  refine bind (.target hk) fun t ht => ?_
  refine bind (.test ha hc) fun passed _ => ?_
  exact pure (branch passed hk hx ht)

theorem risingEdge (hop : i.operation = .swif) :
    Executes host site i states c (Step.risingEdge host site i) := by
  have hk : i.operation.targetSlot? = some 0 := by rw [hop]; rfl
  have hr : i.operation.remembers = true := by rw [hop]; rfl
  refine bind (.target hk) fun t ht => ?_
  refine bind (.test (by rw [hop]; rfl) (by rw [hop]; rfl)) fun passed _ => ?_
  refine bind (.callState hr) fun s _ => ?_
  exact remember hr (branch _ hk (by rw [hop]; rfl) ht)

theorem onlyOnce (hop : i.operation = .oneIf) :
    Executes host site i states c (Step.onlyOnce host site i) := by
  have hk : i.operation.targetSlot? = some 0 := by rw [hop]; rfl
  have hr : i.operation.remembers = true := by rw [hop]; rfl
  refine bind (.target hk) fun t ht => ?_
  refine bind (.test (by rw [hop]; rfl) (by rw [hop]; rfl)) fun passed _ => ?_
  refine bind (.callState hr) fun s _ => ?_
  exact remember hr (branch _ hk (by rw [hop]; rfl) ht)

theorem openSwitch (hop : i.operation = .switch) :
    Executes host site i states c (Step.openSwitch host site i) := by
  refine bind (.predicate (by rw [hop]; rfl)) fun k hk => ?_
  refine bind (.evaluate hk) fun value _ => ?_
  exact modify (.openSwitch value hop)

theorem caseLabel {jumpOn : Bool} (hop : i.operation = .caseArm ∨ i.operation = .orCaseArm) :
    Executes host site i states c (Step.caseLabel site i jumpOn) := by
  have hk : i.operation.targetSlot? = some 0 := by rcases hop with h | h <;> rw [h] <;> rfl
  have hx : Link.crossReference? i.operation = none := by rcases hop with h | h <;> rw [h] <;> rfl
  have hc : i.operation.compares = true := by rcases hop with h | h <;> rw [h] <;> rfl
  refine bind (.target hk) fun t ht => ?_
  refine bind .own fun s hs => ?_
  split
  · next hnone => exact fault (.switchValue hop (by rw [← hs, hnone]))
  · exact bind (.comparison hc) fun t _ => pure (branch _ hk hx ht)

/-! ### Behaviors and tracks -/

theorem endBehavior : Executes host site i states c (Step.endBehavior site) := by
  refine bind .own fun s hs => ?_
  subst hs
  exact modify .endBehavior

theorem setBehaviorOf (hop : i.operation = .setBehaviourObj) :
    Executes host site i states c (Step.setBehaviorOf i) := by
  refine bind (.namedActor (by rw [hop]; rfl)) fun a ha => ?_
  refine bind (.target (by rw [hop]; rfl)) fun t ht => ?_
  exact modify (.sendBehavior hop ha.1 ht)

theorem restoreBehavior : Executes host site i states c (Step.restoreBehavior site) := by
  refine bind .own fun s hs => ?_
  subst hs
  split
  · next saved hsaved => exact pure (.returnBehavior hsaved)
  · exact pure .advance

theorem restoreBehaviorOf (hop : i.operation = .restoreBehaviourObj) :
    Executes host site i states c (Step.restoreBehaviorOf site i) := by
  refine bind (.namedActor (by rw [hop]; rfl)) fun a ha => ?_
  refine bind (P := fun w => w.states = states) (fun _ => ⟨rfl, rfl, rfl⟩) fun w hw => ?_
  split
  · exact pure .advance
  · next saved hsaved =>
      have hsaved : (scriptAt states (.life a)).savedOffset = some saved := by
        rw [← hw]
        exact hsaved
      split
      · next hself =>
          refine pure (.returnBehavior ?_)
          rw [Site.own, ← hself]
          exact hsaved
      · exact modify (.resumeBehavior hop ha.1 hsaved)

theorem declareTrack (hop : i.operation = .track) :
    Executes host site i states c (Step.declareTrack site i) := by
  refine bind (.number (by rw [hop]; rfl)) fun n hn => ?_
  exact modify (.declareTrack hop hn)

theorem setTrackOf (hop : i.operation = .setTrackObj) :
    Executes host site i states c (Step.setTrackOf i) := by
  refine bind (.namedActor (by rw [hop]; rfl)) fun a ha => ?_
  refine bind (.target (by rw [hop]; rfl)) fun t ht => ?_
  exact modify (.sendTrackOf hop ha.1 ht)

/-! ### Waits and the game -/

theorem wait (hc : i.operation.counts = true) (hr : i.operation.remembers = true) :
    Executes host site i states c (Step.wait site i) := by
  refine bind (.number hc) fun n _ => ?_
  refine bind (.callState hr) fun s _ => ?_
  dsimp only
  split
  · exact remember hr .wait
  · exact remember hr .advance

theorem callHost (hop : i.operation.isHosted = true) :
    Executes host site i states c (Step.callHost host site i) := by
  unfold Step.callHost
  dsimp only
  split
  · next k hk =>
      refine bind (.evaluate hk) fun value _ => ?_
      exact bind (P := fun _ => True) (.pure trivial) fun condition _ _ => .hosted hop rfl rfl
  · exact bind (P := fun _ => True) (.pure trivial) fun condition _ _ => .hosted hop rfl rfl

/-- **Every instruction** ends in one of the listed outcomes. -/
theorem execute : Executes host site i states c (Step.execute host site i) := by
  unfold Step.execute
  cases hop : i.operation with
  | nop | snif | neverIf | noIf | endIf | defaultArm => exact pure .advance
  | finish | endLife | halt => exact pure .stop
  | offset | elseThen | breakOff =>
      have hk : i.operation.targetSlot? = some 0 := by rw [hop]; rfl
      exact bind (.target hk) fun t ht => pure (.jump hk (by rw [hop]; rfl) ht)
  | goto => exact bind (.target (by rw [hop]; rfl)) fun t ht => pure (.goto hop ht)
  | ifThen | andIf =>
      exact jumpUnless (by rw [hop]; rfl) (by rw [hop]; rfl) (by rw [hop]; rfl) (by rw [hop]; rfl)
  | orIf =>
      exact jumpIf (by rw [hop]; rfl) (by rw [hop]; rfl) (by rw [hop]; rfl) (by rw [hop]; rfl)
  | swif => exact risingEdge hop
  | oneIf => exact onlyOnce hop
  | switch => exact openSwitch hop
  | caseArm => exact caseLabel (.inl hop)
  | orCaseArm => exact caseLabel (.inr hop)
  | endSwitch => exact modify (.closeSwitch hop)
  | behaviour => exact modify (.enterBehavior hop)
  | setBehaviour =>
      exact bind (.target (by rw [hop]; rfl)) fun t ht => modify (.chooseBehavior hop ht)
  | endBehaviour | ret => exact endBehavior
  | setBehaviourObj => exact setBehaviorOf hop
  | saveBehaviour => exact modify (.saveBehavior hop)
  | restoreBehaviour => exact restoreBehavior
  | saveBehaviourObj =>
      exact bind (.namedActor (by rw [hop]; rfl)) fun a ha => modify (.saveBehaviorOf hop ha.1)
  | restoreBehaviourObj => exact restoreBehaviorOf hop
  | track => exact declareTrack hop
  | setTrack => exact bind (.target (by rw [hop]; rfl)) fun t ht => modify (.sendTrack hop ht)
  | setTrackObj => exact setTrackOf hop
  | stopCurrentTrack => exact modify (.stopTrack hop)
  | restoreLastTrack => exact modify (.resumeTrack hop)
  | stopCurrentTrackObj =>
      exact bind (.namedActor (by rw [hop]; rfl)) fun a ha => modify (.stopTrackOf hop ha.1)
  | restoreLastTrackObj =>
      exact bind (.namedActor (by rw [hop]; rfl)) fun a ha => modify (.resumeTrackOf hop ha.1)
  | waitSeconds | waitDeciseconds => exact wait (by rw [hop]; rfl) (by rw [hop]; rfl)
  | setDirMode | setDirModeObj | host => exact callHost (by rw [hop]; rfl)

end Executes

end SceneScript
