import SceneScript.Proofs.Redirection

/-! # What passes between a script and the game

A script learns about the game from its replies only, and the game about the script from the commands
and questions put to it. So a game can be replaced by one that answers alike.

* `Host.Alike`: two games that answer alike as long as their states are related.
* `Exec.Alike.execute`, `Run.step_alike`, `Run.drive_alike`: an instruction, a step and a run do the
  same with either, and leave the states of the games related.
* `Host.recorded`: a game that notes the exchange; `Scene.exchanges` is what it has noted after a run.
  It answers like the game it watches (`Scene.runScript_recorded`), and what it has noted it keeps
  (`Run.drive_told`). -/

namespace SceneScript

/-! ### Games that answer alike -/

/-- Two games answer alike, and keep their states related. -/
structure Host.Alike {σ τ : Type} (A : Host σ) (B : Host τ) (R : σ → τ → Prop) : Prop where
  execute : ∀ call h g, R h g → (A.execute call h).1 = (B.execute call g).1 ∧
    R (A.execute call h).2 (B.execute call g).2
  evaluate : ∀ query h g, R h g → (A.evaluate query h).1 = (B.evaluate query g).1 ∧
    R (A.evaluate query h).2 (B.evaluate query g).2

/-- Two worlds differ in their games only. -/
structure World.Alike {σ τ : Type} (R : σ → τ → Prop) (w : World σ) (v : World τ) : Prop where
  states : w.states = v.states
  callState : w.callState = v.callState
  host : R w.host v.host

theorem World.Alike.actor {σ τ : Type} {R : σ → τ → Prop} {w : World σ} {v : World τ}
    (h : World.Alike R w v) (a : Nat) : w.actor a = v.actor a := by
  rw [World.actor, World.actor, h.states]

theorem World.Alike.modifyScript {σ τ : Type} {R : σ → τ → Prop} {w : World σ} {v : World τ}
    (h : World.Alike R w v) (id : ScriptId) (f : ScriptState → ScriptState) :
    World.Alike R (w.modifyScript id f) (v.modifyScript id f) := by
  refine ⟨?_, h.callState, h.host⟩
  simp only [World.modifyScript, World.modifyActor, h.states]

/-- The command that an instruction hands to the game. -/
def Site.call {σ : Type} (site : Site) (i : Instruction) (condition : Option Int) (w : World σ) :
    HostCall where
  script := site.script
  opcode := i.opcode
  offset := site.offset
  callState := if i.opcode.needsCallState then some w.callState else none
  condition := condition
  passed :=
    match i.test, condition with
    | some t, some value => some (t.passes value)
    | _, _ => none
  operands := i.operands
  time := site.time
  actor := w.actor site.script.actor

/-- Hand an instruction to the game, when its condition has a value. -/
def Step.hand {σ : Type} (host : Host σ) (site : Site) (i : Instruction) (condition : Option Int) :
    Exec σ Flow := fun w =>
  let (reply, game) := host.execute (site.call i condition w) w.host
  (reply.flow.mapError (.host i.label),
    { w.modifyActor site.script.actor fun _ => reply.actor with
      callState :=
        if i.opcode.needsCallState then reply.callState.getD w.callState else w.callState
      host := game })

namespace Exec

/-- Two actions have the same result in worlds that differ in their games only, and leave such
worlds. -/
def Alike {σ τ α : Type} (R : σ → τ → Prop) (x : Exec σ α) (y : Exec τ α) : Prop :=
  ∀ w v, World.Alike R w v →
    (x.run w).1 = (y.run v).1 ∧ World.Alike R (x.run w).2 (y.run v).2

namespace Alike

variable {σ τ α β : Type} {R : σ → τ → Prop}

theorem pure (a : α) : Alike R (Pure.pure a : Exec σ α) (Pure.pure a : Exec τ α) :=
  fun _ _ h => ⟨rfl, h⟩

theorem throw (f : Fault) :
    Alike R (MonadExcept.throw f : Exec σ α) (MonadExcept.throw f : Exec τ α) :=
  fun _ _ h => ⟨rfl, h⟩

theorem bind {x : Exec σ α} {y : Exec τ α} {f : α → Exec σ β} {g : α → Exec τ β}
    (hx : Alike R x y) (hf : ∀ a, Alike R (f a) (g a)) : Alike R (x >>= f) (y >>= g) := by
  intro w v h
  have ex : (x >>= f).run w = ExceptT.bindCont f (x.run w).1 (x.run w).2 := rfl
  have ey : (y >>= g).run v = ExceptT.bindCont g (y.run v).1 (y.run v).2 := rfl
  obtain ⟨hresult, hworld⟩ := hx w v h
  rw [ex, ey, ← hresult]
  cases (x.run w).1 with
  | ok a => exact hf a _ _ hworld
  | error f => exact ⟨rfl, hworld⟩

theorem get {f : World σ → Exec σ α} {g : World τ → Exec τ α}
    (h : ∀ w v, World.Alike R w v → Alike R (f w) (g v)) :
    Alike R (MonadState.get >>= f) (MonadState.get >>= g) :=
  fun w v hw => h w v hw w v hw

theorem modify {f : World σ → World σ} {g : World τ → World τ}
    (h : ∀ w v, World.Alike R w v → World.Alike R (f w) (g v)) :
    Alike R (MonadState.modifyGet fun w => ((), f w) : Exec σ Unit)
      (MonadState.modifyGet fun v => ((), g v)) :=
  fun w v hw => ⟨rfl, h w v hw⟩

/-! ### The parts of instructions -/

theorem demand (i : Instruction) (r : Except Flaw α) :
    Alike R (Step.demand i r : Exec σ α) (Step.demand i r) := by
  cases r with
  | ok a => exact pure a
  | error flaw => exact throw _

theorem actorOf (i : Instruction) (o : Option Operand) :
    Alike R (Step.actorOf i o : Exec σ Nat) (Step.actorOf i o) := by
  refine get fun w v h => ?_
  rw [h.states]
  exact demand i _

theorem own (site : Site) : Alike R (Step.own site : Exec σ ScriptState) (Step.own site) := by
  refine get fun w v h => ?_
  rw [h.actor]
  exact pure _

theorem callState (i : Instruction) :
    Alike R (Step.callState i : Exec σ CallState) (Step.callState i) := by
  unfold Step.callState
  split
  · refine get fun w v h => ?_
    rw [h.callState]
    exact pure _
  · exact throw _

theorem setCallState (s : CallState) :
    Alike R (Step.setCallState s : Exec σ Unit) (Step.setCallState s) :=
  modify fun _ _ h => ⟨h.states, rfl, h.host⟩

/-- A change of one script, and a flow. -/
theorem change (id : ScriptId) (f : ScriptState → ScriptState) (flow : Flow) :
    Alike R
      (do MonadState.modifyGet fun w : World σ => ((), w.modifyScript id f)
          Pure.pure flow : Exec σ Flow)
      (do MonadState.modifyGet fun w : World τ => ((), w.modifyScript id f)
          Pure.pure flow : Exec τ Flow) :=
  bind (modify fun _ _ h => h.modifyScript id f) fun _ => pure flow

theorem evaluate {A : Host σ} {B : Host τ} (hosts : A.Alike B R) (site : Site) (i : Instruction)
    (k : BoundCondition) : Alike R (Step.evaluate A site i k) (Step.evaluate B site i k) := by
  unfold Step.evaluate
  split
  · refine get fun w v h => ?_
    rw [h.actor]
    exact pure _
  · refine bind (actorOf i k.param) fun a => get fun w v h => ?_
    rw [h.actor]
    exact pure _
  · rintro ⟨states, c, h⟩ ⟨_, _, g⟩ ⟨rfl, rfl, hR⟩
    obtain ⟨hanswer, hrelated⟩ := hosts.evaluate
      ⟨site.script, k.predicate, k.param, site.time, states.getD site.script.actor {}⟩ h g hR
    exact ⟨congrArg (Except.mapError (Fault.host i.label)) hanswer, rfl, rfl, hrelated⟩

theorem test {A : Host σ} {B : Host τ} (hosts : A.Alike B R) (site : Site) (i : Instruction) :
    Alike R (Step.test A site i) (Step.test B site i) := by
  refine bind (demand i _) fun k => bind (evaluate hosts site i k) fun value => ?_
  exact bind (demand i _) fun t => pure _

theorem restoreBehaviorOf (site : Site) (i : Instruction) :
    Alike R (Step.restoreBehaviorOf site i : Exec σ Flow) (Step.restoreBehaviorOf site i) := by
  refine bind (actorOf i _) fun a => get fun w v h => ?_
  rw [h.actor]
  split
  · exact pure _
  · split
    · exact pure _
    · exact change _ _ _

theorem hand {A : Host σ} {B : Host τ} (hosts : A.Alike B R) (site : Site) (i : Instruction)
    (condition : Option Int) :
    Alike R (Step.hand A site i condition) (Step.hand B site i condition) := by
  rintro ⟨states, c, h⟩ ⟨_, _, g⟩ ⟨rfl, rfl, hR⟩
  obtain ⟨hreply, hrelated⟩ := hosts.execute
    (site.call i condition ⟨states, c, h⟩) h g hR
  refine ⟨congrArg (fun r : HostReply => r.flow.mapError (Fault.host i.label)) hreply, ?_, ?_,
    hrelated⟩
  · exact congrArg (fun r : HostReply => states.modify site.script.actor fun _ => r.actor) hreply
  · exact congrArg (fun r : HostReply =>
      if i.opcode.needsCallState then r.callState.getD c else c) hreply

theorem callHost {A : Host σ} {B : Host τ} (hosts : A.Alike B R) (site : Site) (i : Instruction) :
    Alike R (Step.callHost A site i) (Step.callHost B site i) := by
  unfold Step.callHost
  dsimp only
  split
  · refine bind (evaluate hosts site i _) fun value => bind (pure _) fun condition => ?_
    exact hand hosts site i condition
  · refine bind (pure _) fun condition => ?_
    exact hand hosts site i condition

/-- **Every instruction** does the same with games that answer alike. -/
theorem execute {A : Host σ} {B : Host τ} (hosts : A.Alike B R) (site : Site) (i : Instruction) :
    Alike R (Step.execute A site i) (Step.execute B site i) := by
  unfold Step.execute
  cases i.operation with
  | nop | snif | neverIf | noIf | endIf | defaultArm | finish | endLife | halt => exact pure _
  | offset | elseThen | breakOff | goto => exact bind (demand i _) fun t => pure _
  | ifThen | andIf | orIf =>
      exact bind (demand i _) fun t => bind (test hosts site i) fun passed => pure _
  | swif | oneIf =>
      refine bind (demand i _) fun t => bind (test hosts site i) fun passed => ?_
      exact bind (callState i) fun s => bind (setCallState _) fun _ => pure _
  | switch =>
      exact bind (demand i _) fun k => bind (evaluate hosts site i k) fun value => change _ _ _
  | caseArm | orCaseArm =>
      refine bind (demand i _) fun t => bind (own site) fun s => ?_
      split
      · exact throw _
      · exact bind (demand i _) fun t => pure _
  | endSwitch | behaviour | saveBehaviour | stopCurrentTrack | restoreLastTrack => exact change _ _ _
  | setBehaviour | setTrack => exact bind (demand i _) fun t => change _ _ _
  | endBehaviour | ret => exact bind (own site) fun s => change _ _ _
  | setBehaviourObj | setTrackObj =>
      exact bind (actorOf i _) fun a => bind (demand i _) fun t => change _ _ _
  | restoreBehaviour =>
      refine bind (own site) fun s => ?_
      split <;> exact pure _
  | saveBehaviourObj | stopCurrentTrackObj | restoreLastTrackObj =>
      exact bind (actorOf i _) fun a => change _ _ _
  | restoreBehaviourObj => exact restoreBehaviorOf site i
  | track => exact bind (demand i _) fun n => change _ _ _
  | waitSeconds | waitDeciseconds =>
      refine bind (demand i _) fun n => bind (callState i) fun s => ?_
      dsimp only
      split <;> exact bind (setCallState _) fun _ => pure _
  | setDirMode | setDirModeObj | host => exact callHost hosts site i

end Alike

end Exec

/-! ### Runs -/

/-- A run played with another game. -/
def RunContext.playing {σ τ : Type} (cx : RunContext σ) (host : Host τ) : RunContext τ :=
  ⟨host, cx.script, cx.program, cx.time, cx.headless, cx.gasLimit⟩

namespace Run

variable {σ τ : Type} {R : σ → τ → Prop} {cx : RunContext σ} {B : Host τ}

/-- Two runs differ in their games only. -/
structure Alike (R : σ → τ → Prop) (r : Run σ) (s : Run τ) : Prop where
  states : r.states = s.states
  memory : r.memory = s.memory
  host : R r.host s.host
  visited : r.visited = s.visited

theorem Alike.script {r : Run σ} {s : Run τ} (h : Alike R r s) (id : ScriptId) :
    r.script id = s.script id := by
  rw [Run.script, Run.script, h.states]

theorem Alike.modifyScript {r : Run σ} {s : Run τ} (h : Alike R r s) (id : ScriptId)
    (f : ScriptState → ScriptState) : Alike R (r.modifyScript id f) (s.modifyScript id f) :=
  ⟨by simp only [Run.modifyScript, h.states], h.memory, h.host, h.visited⟩

theorem perform_alike (hosts : cx.host.Alike B R) {r : Run σ} {s : Run τ} (h : Alike R r s)
    (offset : Nat) (i : Instruction) :
    (perform cx offset i r).1 = (perform (cx.playing B) offset i s).1 ∧
      Alike R (perform cx offset i r).2 (perform (cx.playing B) offset i s).2 := by
  cases hskip : cx.headless && i.opcode.skippedHeadless with
  | true =>
      have hskip' : ((cx.playing B).headless && i.opcode.skippedHeadless) = true := hskip
      rw [perform_of_skipped hskip, perform_of_skipped hskip']
      exact ⟨rfl, h⟩
  | false =>
      have hworlds : World.Alike R ⟨r.states, r.memory.callState offset, r.host⟩
          ⟨s.states, s.memory.callState offset, s.host⟩ :=
        ⟨h.states, by rw [h.memory], h.host⟩
      obtain ⟨hresult, hafter⟩ :=
        Exec.Alike.execute hosts ⟨cx.script, offset, cx.time⟩ i _ _ hworlds
      rcases hr : (Step.execute cx.host ⟨cx.script, offset, cx.time⟩ i).run
        ⟨r.states, r.memory.callState offset, r.host⟩ with ⟨result, w⟩
      rcases hs : (Step.execute B ⟨cx.script, offset, cx.time⟩ i).run
        ⟨s.states, s.memory.callState offset, s.host⟩ with ⟨result', v⟩
      rw [hr, hs] at hresult hafter
      have hskip' : ((cx.playing B).headless && i.opcode.skippedHeadless) = false := hskip
      have hperform : perform (cx.playing B) offset i s = _ := perform_of_execute hskip' hs
      rw [perform_of_execute hskip hr, hperform]
      refine ⟨hresult, hafter.states, ?_, hafter.host, h.visited⟩
      rw [hafter.callState, h.memory]

theorem step_alike (hosts : cx.host.Alike B R) {r : Run σ} {s : Run τ} (h : Alike R r s)
    (offset : Nat) (i : Instruction) :
    (step cx offset i r).1 = (step (cx.playing B) offset i s).1 ∧
      Alike R (step cx offset i r).2 (step (cx.playing B) offset i s).2 := by
  have harrived : Alike R (arrived cx offset r) (arrived (cx.playing B) offset s) := by
    refine ⟨?_, h.memory, h.host, ?_⟩
    · exact congrArg (fun states => SceneScript.modifyScript states cx.script _) h.states
    · exact congrArg (fun visited => visited.push offset) h.visited
  obtain ⟨hflow, hafter⟩ := perform_alike hosts harrived offset i
  rw [step_eq, step_eq]
  rcases hr : perform cx offset i (arrived cx offset r) with ⟨fault | flow, r'⟩ <;>
    rcases hs : perform (cx.playing B) offset i (arrived (cx.playing B) offset s) with
      ⟨fault' | flow', s'⟩ <;>
    rw [hr, hs] at hflow hafter <;> cases hflow
  · exact ⟨rfl, hafter⟩
  · exact ⟨rfl, hafter.modifyScript cx.script _⟩

theorem Alike.at {r : Run σ} {s : Run τ} (h : Alike R r s) {offset : Nat} {i : Instruction}
    (hat : At cx r offset i) : At (cx.playing B) s offset i := by
  unfold At at hat ⊢
  rwa [h.script] at hat

/-- Where a run stops does not depend on the game. -/
theorem Alike.halt? {r : Run σ} {s : Run τ} (h : Alike R r s) :
    Run.halt? (cx.playing B) s = Run.halt? cx r := by
  have hscript : s.script (cx.playing B).script = r.script cx.script := (h.script _).symm
  unfold Run.halt?
  rw [hscript]
  rfl

/-- **A run** is the same with games that answer alike. -/
theorem drive_alike (hosts : cx.host.Alike B R) {r : Run σ} {s : Run τ} (h : Alike R r s)
    (gas : Nat) :
    (drive cx gas r).1 = (drive (cx.playing B) gas s).1 ∧
      Alike R (drive cx gas r).2 (drive (cx.playing B) gas s).2 := by
  induction gas generalizing r s with
  | zero =>
      rcases halts_or_at cx r with ⟨result, hhalt⟩ | ⟨offset, i, hat⟩
      · rw [drive_of_halt? hhalt, drive_of_halt? (h.halt?.trans hhalt)]
        exact ⟨rfl, h⟩
      · rw [drive_zero_of_at hat, drive_zero_of_at (h.at hat)]
        exact ⟨rfl, h⟩
  | succ gas ih =>
      rcases halts_or_at cx r with ⟨result, hhalt⟩ | ⟨offset, i, hat⟩
      · rw [drive_of_halt? hhalt, drive_of_halt? (h.halt?.trans hhalt)]
        exact ⟨rfl, h⟩
      · obtain ⟨hresult, hafter⟩ := step_alike hosts h offset i
        rw [drive_succ_of_at hat, drive_succ_of_at (h.at hat)]
        rcases hr : step cx offset i r with ⟨fault | u, r'⟩ <;>
          rcases hs : step (cx.playing B) offset i s with ⟨fault' | u', s'⟩ <;>
          rw [hr, hs] at hresult hafter <;> cases hresult
        · exact ⟨rfl, hafter⟩
        · exact ih hafter

theorem start_alike (hosts : cx.host.Alike B R) {r : Run σ} {s : Run τ} (h : Alike R r s) :
    (start cx r).1 = (start (cx.playing B) s).1 ∧
      Alike R (start cx r).2 (start (cx.playing B) s).2 := by
  have hscript : s.script (cx.playing B).script = r.script cx.script := (h.script _).symm
  unfold start
  rw [hscript]
  split
  · exact ⟨rfl, h⟩
  · exact drive_alike hosts (h.modifyScript cx.script _) cx.gasLimit

end Run

/-! ### Scenes -/

namespace Scene

variable {σ τ : Type} {R : σ → τ → Prop}

/-- What running a script comes to, from what driving it came to. -/
def outcome (s : Scene) (id : ScriptId) (o : Except Fault Unit × Run σ) : Outcome σ :=
  let after : Scene :=
    { s with
      states := o.2.states
      memory := s.memory.modify id.actor fun m => m.set id.kind o.2.memory }
  match o.1 with
  | .ok () => ⟨.ok o.2.visited.size, o.2.visited.toList, after, o.2.host⟩
  | .error fault => ⟨.error fault, o.2.visited.toList, after.fail id fault, o.2.host⟩

@[simp] theorem outcome_visited (s : Scene) (id : ScriptId) (o : Except Fault Unit × Run σ) :
    (s.outcome id o).visited = o.2.visited.toList := by
  rcases o with ⟨fault | u, r⟩ <;> rfl

@[simp] theorem outcome_host (s : Scene) (id : ScriptId) (o : Except Fault Unit × Run σ) :
    (s.outcome id o).host = o.2.host := by
  rcases o with ⟨fault | u, r⟩ <;> rfl

theorem outcome_result_eq_error_iff {s : Scene} {id : ScriptId} {o : Except Fault Unit × Run σ}
    {fault : Fault} : (s.outcome id o).result = .error fault ↔ o.1 = .error fault := by
  rcases o with ⟨f | u, r⟩ <;> simp [outcome]

/-- The run of a script of the scene before it is looked at where to start. -/
def ready (s : Scene) (h : σ) (id : ScriptId) : Run σ := ⟨s.states, s.scratch id, h, #[]⟩

theorem runScript_eq_outcome {s : Scene} {id : ScriptId} {program : Program}
    (hp : s.program? id = some program) (host : Host σ) (h : σ) (time : FrameTime) :
    s.runScript host h id time =
      s.outcome id (Run.start (s.context host id program time) (s.ready h id)) := by
  rcases hr : Run.start (s.context host id program time) (s.ready h id) with ⟨result, r⟩
  unfold context ready scratch at hr
  unfold runScript outcome
  simp only [hp, hr]
  cases result with
  | ok u => simp only [Array.length_toList]
  | error fault => rfl

theorem runScript_of_ended {s : Scene} {id : ScriptId} {program : Program}
    (hp : s.program? id = some program) (hr : (scriptAt s.states id).reentry = none)
    (host : Host σ) (h : σ) (time : FrameTime) :
    s.runScript host h id time = s.outcome id (.ok (), s.ready h id) := by
  have hstart : (Run.script (s.ready h id) (s.context host id program time).script).reentry =
      none := hr
  rw [runScript_eq_outcome hp, Run.start, hstart]

theorem runScript_of_reentry {s : Scene} {id : ScriptId} {program : Program} {start : Nat}
    (hp : s.program? id = some program) (hr : (scriptAt s.states id).reentry = some start)
    (host : Host σ) (h : σ) (time : FrameTime) :
    s.runScript host h id time = s.outcome id
      (Run.drive (s.context host id program time) s.config.gasLimit (s.started h id start)) := by
  have hstart : (Run.script (s.ready h id) (s.context host id program time).script).reentry =
      some start := hr
  rw [runScript_eq_outcome hp, Run.start, hstart]
  rfl

/-- Running a script is the same with games that answer alike. -/
theorem runScript_alike {A : Host σ} {B : Host τ} (hosts : A.Alike B R) {h : σ} {g : τ} (hR : R h g)
    (s : Scene) (id : ScriptId) (time : FrameTime) :
    (s.runScript A h id time).result = (s.runScript B g id time).result ∧
      (s.runScript A h id time).visited = (s.runScript B g id time).visited ∧
      (s.runScript A h id time).scene = (s.runScript B g id time).scene ∧
      R (s.runScript A h id time).host (s.runScript B g id time).host := by
  cases hp : s.program? id with
  | none =>
      simp only [runScript, hp]
      exact ⟨trivial, trivial, trivial, hR⟩
  | some program =>
      have hready : Run.Alike R (s.ready h id) (s.ready g id) := ⟨rfl, rfl, hR, rfl⟩
      have hosts' : (s.context A id program time).host.Alike B R := hosts
      obtain ⟨hresult, hafter⟩ := Run.start_alike hosts' hready
      rw [runScript_eq_outcome hp, runScript_eq_outcome hp]
      rcases hr : Run.start (s.context A id program time) (s.ready h id) with ⟨result, r⟩
      rcases hs : Run.start (s.context B id program time) (s.ready g id) with ⟨result', t⟩
      have hs' : Run.start ((s.context A id program time).playing B) (s.ready g id) = _ := hs
      rw [hr, hs'] at hresult hafter
      obtain rfl : result = result' := hresult
      change Run.Alike R r t at hafter
      unfold outcome
      simp only [hafter.states, hafter.memory, hafter.visited]
      cases result with
      | ok u => exact ⟨rfl, rfl, rfl, hafter.host⟩
      | error fault => exact ⟨rfl, rfl, rfl, hafter.host⟩

end Scene

/-! ### Recorded games -/

/-- Something that passed between a script and the game. -/
inductive Exchange where
  | command (call : HostCall) (reply : HostReply)
  | question (query : HostQuery) (answer : Except HostError Int)

/-- A game that notes what it is told and asked, and what it replies. -/
def Host.recorded {σ : Type} (host : Host σ) : Host (σ × List Exchange) where
  execute call h :=
    let (reply, game) := host.execute call h.1
    (reply, game, h.2 ++ [.command call reply])
  evaluate query h :=
    let (answer, game) := host.evaluate query h.1
    (answer, game, h.2 ++ [.question query answer])

/-- Noting changes no answer. -/
theorem Host.recorded_alike {σ : Type} (host : Host σ) :
    host.recorded.Alike host fun h g => h.1 = g := by
  constructor
  · rintro call h _ rfl
    exact ⟨rfl, rfl⟩
  · rintro query h _ rfl
    exact ⟨rfl, rfl⟩

/-- What is noted stays noted. -/
theorem Host.recorded_told {σ : Type} (host : Host σ) (told : List Exchange) :
    host.recorded.Alike host.recorded fun h g => h = g ∧ told <+: h.2 := by
  constructor
  · rintro call h _ ⟨rfl, hold⟩
    exact ⟨rfl, rfl, hold.trans (List.prefix_append _ _)⟩
  · rintro query h _ ⟨rfl, hold⟩
    exact ⟨rfl, rfl, hold.trans (List.prefix_append _ _)⟩

/-- A run adds to what has been noted. -/
theorem Run.drive_told {σ : Type} {cx : RunContext (σ × List Exchange)} {host : Host σ}
    (hhost : cx.host = host.recorded) (gas : Nat) (r : Run (σ × List Exchange)) :
    r.host.2 <+: (Run.drive cx gas r).2.host.2 := by
  have hosts : cx.host.Alike cx.host fun h g => h = g ∧ r.host.2 <+: h.2 := by
    rw [hhost]
    exact host.recorded_told r.host.2
  have hsame : Run.Alike (fun h g => h = g ∧ r.host.2 <+: h.2) r r :=
    ⟨rfl, rfl, ⟨rfl, List.prefix_refl _⟩, rfl⟩
  exact (Run.drive_alike hosts hsame gas).2.host.2

namespace Scene

variable {σ : Type}

/-- What passes between a script and the game while the script runs. -/
def exchanges (s : Scene) (host : Host σ) (h : σ) (id : ScriptId) (time : FrameTime) :
    List Exchange :=
  (s.runScript host.recorded (h, []) id time).host.2

/-- **Recording does not disturb a run.** -/
theorem runScript_recorded (s : Scene) (host : Host σ) (h : σ) (id : ScriptId) (time : FrameTime) :
    let o := s.runScript host.recorded (h, []) id time
    o.result = (s.runScript host h id time).result ∧
      o.visited = (s.runScript host h id time).visited ∧
      o.scene = (s.runScript host h id time).scene ∧
      o.host = ((s.runScript host h id time).host, s.exchanges host h id time) := by
  obtain ⟨hresult, hvisited, hscene, hhost⟩ :=
    runScript_alike host.recorded_alike (h := (h, [])) rfl s id time
  exact ⟨hresult, hvisited, hscene, Prod.ext hhost rfl⟩

end Scene

end SceneScript
