import SceneScript.Proofs.Frames
import SceneScript.Proofs.Isolation

/-! # Killed actors

A killed actor does nothing until something gives one of its scripts a point to resume at. Its own
scripts cannot, since they do not run; the game cannot, since it is handed the states of the caller
only; and the instructions of other actors can in four operations only (`Instruction.Wakes`).

* `Effect.rests`, `Run.step_rests`: no other instruction wakes a script, though some change the
  position it keeps.
* `Run.Sleeps`, `Run.Steps.sleeps`: so it is for all steps of a run together.
* `Scene.Dormant.serve`, `Scene.Dormant.play`: so it is for every request, and for histories of
  them.
* `Releases`: what holds until something happens.
* `Scene.killActor_inert`: a killed actor is inert until it is woken. -/

namespace SceneScript

/-! ### Release -/

/-- `P` holds of the members of a list up to and including the first that satisfies `W`, and of all
of them if there is none. -/
def Releases {α : Type} (W P : α → Prop) : List α → Prop
  | [] => True
  | x :: xs => P x ∧ (¬ W x → Releases W P xs)

section
variable {α : Type} {W P : α → Prop}

theorem releases_append {xs ys : List α} :
    Releases W P (xs ++ ys) ↔
      Releases W P xs ∧ ((∀ x ∈ xs, ¬ W x) → Releases W P ys) := by
  induction xs with
  | nil => simp [Releases]
  | cons x xs ih =>
      simp only [List.cons_append, Releases, ih, List.forall_mem_cons]
      tauto

/-- What holds until it is released holds of a member if none before it releases. -/
theorem Releases.of_split {before after : List α} {x : α}
    (h : Releases W P (before ++ x :: after)) (hbefore : ∀ y ∈ before, ¬ W y) : P x :=
  ((releases_append.mp h).2 hbefore).1

end

/-! ### Rest -/

/-- The instruction may give a script of the actor a point to resume at. -/
def Instruction.Wakes (i : Instruction) (a : Nat) : Prop :=
  i.operation ∈ [.setBehaviourObj, .restoreBehaviourObj, .setTrackObj, .restoreLastTrackObj] ∧
    i.operands[0]? = some (.actor a)

instance (i : Instruction) (a : Nat) : Decidable (i.Wakes a) :=
  inferInstanceAs (Decidable (_ ∧ _))

/-- A script has ended, in the state in which it was killed but for the position it keeps. -/
structure ScriptState.RestsFrom (killed s : ScriptState) : Prop where
  ended : s.reentry = none
  stopped : s.running = false
  kept : s = { killed with savedOffset := s.savedOffset }

/-- Both scripts of an actor have ended, in the states in which they were killed but for the
positions they keep. -/
def AtRest (a : Nat) (killed states : Array ActorState) : Prop :=
  ∀ kind, (scriptAt killed ⟨a, kind⟩).RestsFrom (scriptAt states ⟨a, kind⟩)

theorem ScriptId.ne_of_actor_ne {a : Nat} {id : ScriptId} (h : a ≠ id.actor) (kind : ScriptKind) :
    ⟨a, kind⟩ ≠ id :=
  fun he => h (congrArg ScriptId.actor he)

theorem ScriptState.RestsFrom.save {killed s : ScriptState} (h : killed.RestsFrom s)
    (position : Option Nat) : killed.RestsFrom { s with savedOffset := position } :=
  ⟨h.ended, h.stopped, congrArg (fun t => { t with savedOffset := position }) h.kept⟩

theorem ScriptState.RestsFrom.terminate {killed s : ScriptState} (h : killed.RestsFrom s) :
    killed.RestsFrom s.terminate := by
  have hsame : s.terminate = s := by
    rw [ScriptState.terminate, ← h.ended, ← h.stopped]
  rwa [hsame]

/-- An instruction of another actor changes at most the position that a resting script keeps, unless
it wakes the actor. -/
theorem Effect.rests {site : Site} {i : Instruction} {states : Array ActorState} {flow : Flow}
    {script : ScriptId} {f : ScriptState → ScriptState} (he : Effect site i states flow script f)
    (hne : script.actor ≠ site.script.actor) (hwakes : ¬ i.Wakes script.actor)
    {killed s : ScriptState} (h : killed.RestsFrom s) : killed.RestsFrom (f s) := by
  cases he with
  | sendBehavior hop ha | resumeBehavior hop ha | sendTrackOf hop ha | resumeTrackOf hop ha =>
      exact absurd ⟨by rw [hop]; decide, ha⟩ hwakes
  | saveBehaviorOf _ _ => exact h.save s.behaviorOffset
  | stopTrackOf _ _ =>
      have hsaves : Step.stopTrack s = { s with savedOffset := s.trackOffset } := by
        rw [Step.stopTrack, ← h.ended]
      rw [hsaves]
      exact h.save s.trackOffset
  | _ => exact absurd rfl hne

theorem Acts.rests {σ : Type} {host : Host σ} {site : Site} {i : Instruction}
    {states : Array ActorState} {c : CallState} {result : Except Fault Flow} {w : World σ}
    (hacts : Acts host site i states c result w) {id : ScriptId}
    (hne : id.actor ≠ site.script.actor) (hwakes : ¬ i.Wakes id.actor) {killed : ScriptState}
    (h : killed.RestsFrom (scriptAt states id)) : killed.RestsFrom (scriptAt w.states id) := by
  cases hacts with
  | @effect flow script f _ he hstates _ =>
      rw [hstates]
      rcases scriptAt_modifyScript_cases states script f id with heq | ⟨rfl, heq⟩
      · rwa [heq]
      · rw [heq]
        exact he.rests hne hwakes h
  | fault _ hstates _ => rwa [hstates]
  | hosted _ _ hstates =>
      -- The game replaces the states of the caller, who is not this actor.
      rw [hstates]
      rcases scriptAt_modify_cases states site.script.actor _ id with heq | ⟨hactor, -⟩
      · rwa [heq]
      · exact absurd hactor hne

/-! ### Runs of other actors -/

namespace Run

variable {σ : Type} {cx : RunContext σ} {a : Nat} {killed : Array ActorState}

theorem step_rests {offset : Nat} {i : Instruction} {r : Run σ} {id : ScriptId}
    (hne : id.actor ≠ cx.script.actor)
    (hwakes : (cx.headless && i.opcode.skippedHeadless) = false → ¬ i.Wakes id.actor)
    {killed : ScriptState} (h : killed.RestsFrom (scriptAt r.states id)) :
    killed.RestsFrom (scriptAt (step cx offset i r).2.states id) := by
  cases hskip : cx.headless && i.opcode.skippedHeadless with
  | true => rwa [step_elsewhere_of_skipped hskip r hne]
  | false =>
      obtain ⟨c, result, w, hacts, hentered, hafter⟩ := step_acts_elsewhere cx offset i r hne
      rw [hafter]
      rw [← hentered] at h
      exact hacts.rests hne (hwakes hskip) h

/-- An actor rests unless the run has executed an instruction that wakes it. -/
def Sleeps (cx : RunContext σ) (a : Nat) (killed : Array ActorState) (r : Run σ) : Prop :=
  (∀ i ∈ executed cx r, ¬ i.Wakes a) → AtRest a killed r.states

theorem Sleeps.step (ha : a ≠ cx.script.actor) {r : Run σ} (h : Sleeps cx a killed r) {offset : Nat}
    {i : Instruction} (hi : cx.program.instructions[offset]? = some i) :
    Sleeps cx a killed (Run.step cx offset i r).2 := by
  intro hquiet kind
  rw [executed_step hi, List.forall_mem_append] at hquiet
  have hid : (⟨a, kind⟩ : ScriptId).actor ≠ cx.script.actor := ha
  refine step_rests hid ?_ (h hquiet.1 kind)
  intro hskip
  exact hquiet.2 i (by simp [hskip])

theorem Steps.sleeps (ha : a ≠ cx.script.actor) {n : Nat} {r s : Run σ} (hsteps : Steps cx n r s)
    (h : Sleeps cx a killed r) : Sleeps cx a killed s := by
  refine hsteps.invariant ?_ h
  intro u v offset i hat hstep hu
  have hv := hu.step ha hat.2.2
  rwa [hstep] at hv

theorem Stops.sleeps (ha : a ≠ cx.script.actor) {r : Run σ} {o : Except Fault Unit × Run σ}
    (h : Sleeps cx a killed r) (hstops : Stops cx r o) : Sleeps cx a killed o.2 := by
  cases hstops with
  | ended | overrun | exhausted => exact h
  | @fault offset i f after hat hstep =>
      have hafter := h.step ha hat.2.2
      rwa [hstep] at hafter

end Run

namespace Scene

variable {σ : Type} {s : Scene} {a : Nat} {killed : Array ActorState} {id : ScriptId}

theorem sleeps_started (ha : a ≠ id.actor) (hrest : AtRest a killed s.states)
    (cx : RunContext σ) (h : σ) (start : Nat) : Run.Sleeps cx a killed (s.started h id start) := by
  intro _ kind
  rw [started, scriptAt_modifyScript_of_ne (ScriptId.ne_of_actor_ne ha kind)]
  exact hrest kind

/-- An actor rests at every moment of a run of another actor before the run wakes it. -/
theorem Passes.atRest {host : Host σ} {h : σ} {time : FrameTime} {n : Nat} {r : Run σ}
    (hr : s.Passes host h id time n r) (ha : a ≠ id.actor) (hrest : AtRest a killed s.states)
    (hquiet : ∀ i ∈ s.executed id r.visited.toList, ¬ i.Wakes a) : AtRest a killed r.states := by
  obtain ⟨program, start, hp, -, hsteps⟩ := hr
  rw [executed_of_program hp] at hquiet
  exact hsteps.sleeps ha (sleeps_started ha hrest _ h start) hquiet

/-- An actor rests after a run of another actor that does not wake it. -/
theorem atRest_runScript (host : Host σ) (h : σ) (time : FrameTime) (ha : a ≠ id.actor)
    (hrest : AtRest a killed s.states)
    (hquiet : ∀ i ∈ s.executed id (s.runScript host h id time).visited, ¬ i.Wakes a) :
    AtRest a killed (s.runScript host h id time).scene.states := by
  cases hp : s.program? id with
  | none =>
      have hstates : (s.runScript host h id time).scene.states = s.states := by
        simp [runScript, hp]
      rwa [hstates]
  | some program =>
      cases hr : (scriptAt s.states id).reentry with
      | none => rwa [(runScript_of_terminated hp hr host h time).2]
      | some start =>
          obtain ⟨n, r, result, last, hsteps, hstops, -, hvisited, hstates⟩ :=
            runScript_stops hp hr host h time
          have hsleeps := Run.Stops.sleeps ha
            (hsteps.sleeps ha (sleeps_started ha hrest _ h start)) hstops
          rw [executed_of_program hp, hvisited] at hquiet
          intro kind
          rw [hstates]
          cases result with
          | ok u => exact hsleeps hquiet kind
          | error f =>
              change (scriptAt killed ⟨a, kind⟩).RestsFrom
                (scriptAt (modifyScript last.states id ScriptState.terminate) ⟨a, kind⟩)
              rw [scriptAt_modifyScript_of_ne (ScriptId.ne_of_actor_ne ha kind)]
              exact hsleeps hquiet kind

/-! ### Turns -/

/-- An actor of the scene rests. -/
structure Dormant (s : Scene) (a : Nat) (killed : Array ActorState) : Prop where
  programs : ∀ kind, (s.program? ⟨a, kind⟩).isSome = true
  rests : AtRest a killed s.states

end Scene

namespace Turn

variable {σ : Type} {a : Nat} {killed : Array ActorState}

/-- In its turn a script of another actor executes an instruction that wakes the actor. -/
def Wakes (turn : Turn σ) (a : Nat) : Prop :=
  turn.script.actor ≠ a ∧
    ∃ i ∈ turn.scene.executed turn.script turn.outcome.visited, i.Wakes a

instance (turn : Turn σ) (a : Nat) : Decidable (turn.Wakes a) :=
  inferInstanceAs (Decidable (_ ∧ _))

/-- The turn finds an actor at rest. If it is a turn of that actor nothing is executed; if it is one
of another actor, the actor rests until the turn executes an instruction that wakes it. -/
structure Spares (turn : Turn σ) (a : Nat) (killed : Array ActorState) : Prop where
  found : AtRest a killed turn.scene.states
  own : turn.script.actor = a → turn.outcome.result = .ok 0 ∧ turn.outcome.visited = [] ∧
    turn.outcome.scene.states = turn.scene.states
  others : turn.script.actor ≠ a → ∀ n r,
    turn.scene.Passes turn.host turn.game turn.script turn.time n r →
    (∀ i ∈ turn.scene.executed turn.script r.visited.toList, ¬ i.Wakes a) →
    AtRest a killed r.states

theorem spares_of_dormant {turn : Turn σ} (h : turn.scene.Dormant a killed) :
    turn.Spares a killed := by
  refine ⟨h.rests, ?_, ?_⟩
  · intro hactor
    obtain ⟨scene, host, game, ⟨b, kind⟩, time⟩ := turn
    obtain rfl : b = a := hactor
    obtain ⟨program, hp⟩ := Option.isSome_iff_exists.mp (h.programs kind)
    obtain ⟨hresult, hstates⟩ :=
      Scene.runScript_of_terminated hp (h.rests kind).ended host game time
    exact ⟨hresult, List.eq_nil_of_length_eq_zero (Scene.length_visited hresult), hstates⟩
  · intro hactor n r hr hquiet
    exact hr.atRest (Ne.symm hactor) h.rests hquiet

/-- A turn that does not wake an actor leaves it dormant. -/
theorem dormant_of_not_wakes (turn : Turn σ) (h : turn.scene.Dormant a killed)
    (hwakes : ¬ turn.Wakes a) : turn.outcome.scene.Dormant a killed := by
  refine ⟨?_, ?_⟩
  · intro kind
    rw [outcome, Scene.program?_runScript]
    exact h.programs kind
  · by_cases hactor : turn.script.actor = a
    · rw [((spares_of_dormant h).own hactor).2.2]
      exact h.rests
    · refine Scene.atRest_runScript _ _ _ (Ne.symm hactor) h.rests ?_
      intro i hi hi'
      exact hwakes ⟨hactor, i, hi, hi'⟩

end Turn

namespace Scene

variable {σ : Type} {s : Scene} {a : Nat} {killed : Array ActorState}

/-- Turns spare a dormant actor until one of them wakes it, and leave it dormant if none does. -/
theorem Dormant.turns (hs : s.Dormant a killed) (host : Host σ) (h : σ) (time : FrameTime)
    (ids : List ScriptId) :
    Releases (Turn.Wakes · a) (Turn.Spares · a killed) (s.turns host h time ids) ∧
      ((∀ turn ∈ s.turns host h time ids, ¬ turn.Wakes a) →
        (s.afterTurns host h time ids).1.Dormant a killed) := by
  induction ids generalizing s h with
  | nil => exact ⟨trivial, fun _ => hs⟩
  | cons id ids ih =>
      have hspares : (⟨s, host, h, id, time⟩ : Turn σ).Spares a killed := Turn.spares_of_dormant hs
      have hleaves := Turn.dormant_of_not_wakes ⟨s, host, h, id, time⟩ hs
      refine ⟨⟨hspares, fun hwakes => (ih (hleaves hwakes) _).1⟩, ?_⟩
      intro hquiet
      rw [Scene.turns, List.forall_mem_cons] at hquiet
      exact (ih (hleaves hquiet.1) _).2 hquiet.2

/-! ### Requests -/

/-- The turns that a request gives to scripts. -/
def turnsOf (s : Scene) (h : σ) : Request σ → List (Turn σ)
  | .frame host time => s.frameTurns host h time
  | .script host id time => [⟨s, host, h, id, time⟩]
  | .kill _ | .revive _ | .restore _ => []

/-- The turns of all that is asked, in order. -/
def history (s : Scene) (h : σ) : List (Request σ) → List (Turn σ)
  | [] => []
  | request :: rest =>
    s.turnsOf h request ++ (s.serve h request).2.1.history (s.serve h request).2.2 rest

end Scene

/-- Requests that set the states of an actor anew. -/
def Request.Resets {σ : Type} (a : Nat) : Request σ → Prop
  | .revive b => b = a
  | .restore _ => True
  | .frame .. | .script .. | .kill _ => False

namespace Scene

variable {σ τ : Type} {s t : Scene} {a : Nat} {killed : Array ActorState}

theorem Dormant.killActor (hs : s.Dormant a killed) {b : Nat} (hkill : s.killActor b = .ok t) :
    t.Dormant a killed := by
  unfold Scene.killActor at hkill
  split at hkill
  · cases hkill
    refine ⟨hs.programs, ?_⟩
    intro kind
    rcases scriptAt_modify_cases s.states b
      (fun x => ⟨x.life.terminate, x.moves.terminate⟩) ⟨a, kind⟩ with heq | ⟨rfl, heq⟩
    · rw [heq]
      exact hs.rests kind
    · rw [heq]
      cases kind
      · exact (hs.rests .life).terminate
      · exact (hs.rests .move).terminate
  · cases hkill

theorem Dormant.reviveActor (hs : s.Dormant a killed) {b : Nat} (hb : b ≠ a)
    (hrevive : s.reviveActor b = .ok t) : t.Dormant a killed := by
  unfold Scene.reviveActor at hrevive
  split at hrevive
  · cases hrevive
  · cases hrevive
    refine ⟨hs.programs, ?_⟩
    intro kind
    rcases scriptAt_modify_cases s.states b _ ⟨a, kind⟩ with heq | ⟨hactor, -⟩
    · rw [heq]
      exact hs.rests kind
    · exact absurd hactor.symm hb

theorem Dormant.attempt (hs : s.Dormant a killed) {change : Except Fault Scene}
    (hchange : ∀ {t}, change = .ok t → t.Dormant a killed) (h : σ) :
    (s.attempt h change).2.1.Dormant a killed := by
  cases change with
  | ok t => exact hchange rfl
  | error fault => exact hs

theorem Dormant.opened (hs : s.Dormant a killed) : s.opened.Dormant a killed :=
  ⟨hs.programs, hs.rests⟩

/-- Serving a request spares a dormant actor until a turn wakes it, and leaves it dormant if none
does. -/
theorem Dormant.serve (hs : s.Dormant a killed) (h : σ) {request : Request σ}
    (hrequest : ¬ request.Resets a) :
    Releases (Turn.Wakes · a) (Turn.Spares · a killed) (s.turnsOf h request) ∧
      ((∀ turn ∈ s.turnsOf h request, ¬ turn.Wakes a) →
        (s.serve h request).2.1.Dormant a killed) := by
  cases request with
  | frame host time =>
      obtain ⟨hturns, hlast⟩ := hs.opened.turns host h time s.scripts
      refine ⟨hturns, ?_⟩
      intro hquiet
      have hdormant := hlast hquiet
      change (s.runFrame host h time).2.1.Dormant a killed
      rw [runFrame_eq]
      exact ⟨hdormant.programs, hdormant.rests⟩
  | script host id time =>
      refine ⟨⟨Turn.spares_of_dormant hs, fun _ => trivial⟩, ?_⟩
      intro hquiet
      exact Turn.dormant_of_not_wakes _ hs (hquiet _ List.mem_cons_self)
  | kill b => exact ⟨trivial, fun _ => hs.attempt hs.killActor h⟩
  | revive b => exact ⟨trivial, fun _ => hs.attempt (hs.reviveActor hrequest) h⟩
  | restore x => exact absurd trivial hrequest

theorem Dormant.play (hs : s.Dormant a killed) (h : σ) {requests : List (Request σ)}
    (hrequests : ∀ request ∈ requests, ¬ request.Resets a) :
    Releases (Turn.Wakes · a) (Turn.Spares · a killed) (s.history h requests) ∧
      ((∀ turn ∈ s.history h requests, ¬ turn.Wakes a) →
        (s.play h requests).2.1.Dormant a killed) := by
  induction requests generalizing s h with
  | nil => exact ⟨trivial, fun _ => hs⟩
  | cons request rest ih =>
      rw [List.forall_mem_cons] at hrequests
      obtain ⟨hturns, hafter⟩ := hs.serve h hrequests.1
      refine ⟨releases_append.mpr ⟨hturns, fun hquiet => (ih (hafter hquiet) _ hrequests.2).1⟩, ?_⟩
      intro hquiet
      rw [history, List.forall_mem_append] at hquiet
      exact (ih (hafter hquiet.1) _ hrequests.2).2 hquiet.2

/-! ### Frames -/

/-- In a frame of a dormant actor that is not woken before its own turns come, the actor neither
faults nor is traced. -/
theorem Dormant.runFrame (hs : s.Dormant a killed) (host : Host σ) (h : σ) (time : FrameTime)
    (hquiet : ∀ turn ∈ s.frameTurns host h time, turn.script.actor < a → ¬ turn.Wakes a) :
    (∀ f ∈ (s.runFrame host h time).1.faults, f.1.actor ≠ a) ∧
      ∀ trace, (s.runFrame host h time).2.1.trace = some trace →
        ∀ visit ∈ trace.visits, visit.script.actor ≠ a := by
  have hown : ∀ turn ∈ s.frameTurns host h time, turn.script.actor = a →
      turn.outcome.result = .ok 0 ∧ turn.outcome.visited = [] := by
    intro turn hturn hactor
    obtain ⟨before, after, hsplit⟩ := List.append_of_mem hturn
    have hreleases := (hs.opened.turns host h time s.scripts).1
    have horder := s.pairwise_frameTurns host h time
    rw [hsplit, List.map_append, List.pairwise_append] at horder
    rw [show s.opened.turns host h time s.scripts = _ from hsplit] at hreleases
    have hspares : turn.Spares a killed := by
      refine hreleases.of_split ?_
      intro u hu hwakes
      -- What comes before the turn is of an actor before, or of this actor itself.
      have hbefore := horder.2.2 u.script (List.mem_map_of_mem hu) turn.script (by simp)
      rcases hbefore with hlt | ⟨heq, -⟩
      · refine hquiet u ?_ (hactor ▸ hlt) hwakes
        rw [hsplit]
        exact List.mem_append_left _ hu
      · exact hwakes.1 (heq.trans hactor)
    exact ⟨(hspares.own hactor).1, (hspares.own hactor).2.1⟩
  rw [runFrame_eq]
  refine ⟨?_, ?_⟩
  · intro f hf hactor
    obtain ⟨turn, hturn, hfault⟩ := List.mem_filterMap.mp hf
    obtain ⟨hscript, hresult⟩ := Turn.fault?_eq_some_iff.mp hfault
    rw [(hown turn hturn (hscript ▸ hactor)).1] at hresult
    cases hresult
  · intro trace htrace visit hvisit hactor
    dsimp only at htrace
    split at htrace
    · cases htrace
      obtain ⟨turn, hturn, hsome⟩ := List.mem_filterMap.mp hvisit
      obtain ⟨hscript, -, hvisited⟩ := Turn.visit?_eq_some hsome
      exact hvisited (hown turn hturn (hscript ▸ hactor)).2
    · cases htrace

/-- Killing an actor of a scene in play makes it dormant. -/
theorem dormant_of_killActor {c : CompiledScene} {config : Config}
    (hblank : s.blank = (ofCompiled c config).blank) (hkill : s.killActor a = .ok t) :
    t.Dormant a t.states := by
  have hprogram : ∀ kind, t.program? ⟨a, kind⟩ = (ofCompiled c config).program? ⟨a, kind⟩ :=
    fun kind => program?_of_blank ((blank_killActor hkill).trans hblank) ⟨a, kind⟩
  unfold Scene.killActor at hkill
  split at hkill
  · next hlt =>
      cases hkill
      refine ⟨?_, ?_⟩
      · intro kind
        have hsize : a < c.actors.size := by
          have hlt' : a < (ofCompiled c config).states.size := by
            rw [← size_of_blank hblank]
            exact hlt
          rwa [ofCompiled, Array.size_map] at hlt'
        rw [hprogram, program?, ofCompiled]
        simp [hsize]
      · intro kind
        have hself : scriptAt (s.states.modify a fun x => ⟨x.life.terminate, x.moves.terminate⟩)
            ⟨a, kind⟩ = (scriptAt s.states ⟨a, kind⟩).terminate := by
          simp only [scriptAt, Array.getD_eq_getD_getElem?, Array.getElem?_modify, if_true,
            Array.getElem?_eq_getElem hlt, Option.map_some, Option.getD_some]
          cases kind <;> rfl
        rw [hself]
        exact ⟨rfl, rfl, rfl⟩
  · cases hkill

/-- **A killed actor is inert.** Kill an actor of a scene, whatever the scene has gone through, and
ask anything of the scene but to revive this actor or to restore a snapshot, with any games. Until
in a turn of another actor SET_BEHAVIOUR_OBJ, RESTORE_BEHAVIOUR_OBJ, SET_TRACK_OBJ or
RESTORE_LAST_TRACK_OBJ is executed for this actor, both scripts of the actor have no point to
resume at and stay in the state they were killed in, but for the positions they keep: at the start
of every turn, at every moment of the turns of other actors, and in the end. Its own turns execute
nothing and return no steps. It is neither among the faults nor in the trace of a frame in which it
is not woken before its turns. -/
theorem killActor_inert (c : CompiledScene) (config : Config) (g : τ) (past : List (Request τ))
    (hkill : ((ofCompiled c config).play g past).2.1.killActor a = .ok t) (h : σ)
    {requests : List (Request σ)} (hrequests : ∀ request ∈ requests, ¬ request.Resets a) :
    Releases (Turn.Wakes · a) (Turn.Spares · a t.states) (t.history h requests) ∧
    ((∀ turn ∈ t.history h requests, ¬ turn.Wakes a) →
      AtRest a t.states (t.play h requests).2.1.states) ∧
    ∀ first host time rest, requests = first ++ .frame host time :: rest →
      (∀ turn ∈ t.history h first, ¬ turn.Wakes a) →
      let s := (t.play h first).2.1
      let e := (t.play h first).2.2
      (∀ turn ∈ s.frameTurns host e time, turn.script.actor < a → ¬ turn.Wakes a) →
      (∀ f ∈ (s.runFrame host e time).1.faults, f.1.actor ≠ a) ∧
        ∀ trace, (s.runFrame host e time).2.1.trace = some trace →
          ∀ visit ∈ trace.visits, visit.script.actor ≠ a := by
  have hdormant : t.Dormant a t.states := dormant_of_killActor (blank_play _ g past) hkill
  obtain ⟨hturns, hlast⟩ := hdormant.play h hrequests
  refine ⟨hturns, fun hquiet => (hlast hquiet).rests, ?_⟩
  rintro first host time rest rfl hquiet s e hframe
  have hfirst : ∀ request ∈ first, ¬ request.Resets a :=
    fun request hmem => hrequests request (List.mem_append_left _ hmem)
  exact ((hdormant.play h hfirst).2 hquiet).runFrame host e time hframe

/-- An actor is killed on its track, and another one stops its track in the next frame: the killed
actor keeps the position of the track, and that is all that happens to it. -/
theorem killActor_inert_stopped :
    let source : SceneSource :=
      { actors := [{ life := [0x89, 1, 0x23] },
          { moves := [0x09, 3, 0x12, 5, 0, 0, 0, 0, 0x0B] }] }
    let c := compileScene .standard source
    let s := ((ofCompiled c {}).play () [.script .quiet (.move 1) {}]).2.1
    let t : Scene :=
      { s with states := s.states.modify 1 fun x => ⟨x.life.terminate, x.moves.terminate⟩ }
    let requests : List (Request Unit) := [.frame .quiet {}, .script .quiet (.move 1) {}]
    let after := (t.play () requests).2.1
    s.killActor 1 = .ok t ∧ AtRest 1 t.states after.states ∧
      (scriptAt t.states (.move 1)).savedOffset = none ∧
      (scriptAt after.states (.move 1)).savedOffset = some 0 := by
  intro source c s t requests after
  have hkill : s.killActor 1 = .ok t := if_pos (by decide +kernel)
  have hrequests : ∀ request ∈ requests, ¬ request.Resets 1 := by
    simp [requests, Request.Resets]
  have hquiet : ∀ turn ∈ t.history () requests, ¬ turn.Wakes 1 := by decide +kernel
  obtain ⟨-, hlast, -⟩ :=
    killActor_inert c {} () [.script .quiet (.move 1) {}] hkill () hrequests
  exact ⟨hkill, hlast hquiet, by decide +kernel, by decide +kernel⟩

end Scene

end SceneScript
