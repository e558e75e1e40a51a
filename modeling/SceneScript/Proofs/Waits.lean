import SceneScript.Proofs.Snapshots

/-! # Waits

A wait keeps its deadline in its scratch record, and the script that waits keeps where it is
suspended. The two agree as long as nothing moves the script meanwhile.

* `Scene.WaitConsistent`: a wait with a deadline is the one its script is suspended on.
* `Run.Rests`: so it is for the running script between instructions; one step brings it about and
  every further one keeps it (`Rests.of_step`, `Rests.drive`).
* `Operation.displaces`: the instructions that move other scripts; no other instruction does
  (`Acts.reentry`, `Run.Undisplaced`).
* `Scene.waitConsistent_kept`: what keeps a scene consistent, and when the rest does not. -/

namespace SceneScript

/-! ### Deadlines -/

/-- The instruction waits. -/
def Operation.waits : Operation → Bool
  | .waitSeconds | .waitDeciseconds => true
  | _ => false

/-- An instruction of a program is a wait whose scratch record has a deadline. -/
def Program.Armed (p : Program) (m : Memory) (k : Nat) : Prop :=
  (∃ i ∈ p.instructions[k]?, i.operation.waits = true) ∧ (m.callState k).deadline.isSome = true

instance (p : Program) (m : Memory) (k : Nat) : Decidable (p.Armed m k) :=
  inferInstanceAs (Decidable ((∃ i ∈ p.instructions[k]?, _) ∧ _))

/-- A wait that can be executed stops the script until a frame has reached its deadline, which it sets
if there is none. -/
theorem execute_wait {σ : Type} (host : Host σ) (site : Site) {i : Instruction} {n : Int}
    (hop : i.operation.waits = true) (hn : i.numberAt 0 = .ok n)
    (hneeds : i.opcode.needsCallState = true) (w : World σ) :
    let deadline := w.callState.deadline.getD (site.time.elapsed.add (Step.waitLength i n))
    (Step.execute host site i).run w =
      if site.time.elapsed.lt deadline then
        (.ok .suspend, { w with callState := { w.callState with deadline := some deadline } })
      else (.ok .advance, { w with callState := { w.callState with deadline := none } }) := by
  intro deadline
  have hwait : Step.execute host site i = Step.wait site i := by
    unfold Step.execute
    cases h : i.operation with
    | waitSeconds | waitDeciseconds => rfl
    | _ => rw [h] at hop; cases hop
  have hcount : (Step.demand i (i.numberAt 0)).run w = (.ok n, w) := by
    rw [hn]
    rfl
  have hrecord : (Step.callState i).run w = (.ok w.callState, w) := by
    unfold Step.callState
    rw [if_pos hneeds]
    rfl
  rw [hwait, Step.wait, Exec.run_bind hcount, Exec.run_bind hrecord]
  dsimp only
  split <;> rfl

/-- It stops the script, or lets it go on and has no deadline any more. -/
theorem run_execute_wait {σ : Type} (host : Host σ) (site : Site) {i : Instruction} {n : Int}
    (hop : i.operation.waits = true) (hn : i.numberAt 0 = .ok n)
    (hneeds : i.opcode.needsCallState = true) (w : World σ) :
    ∃ c, (Step.execute host site i).run w = (.ok .suspend, { w with callState := c }) ∨
      (Step.execute host site i).run w = (.ok .advance, { w with callState := c }) ∧
        c.deadline = none := by
  rw [execute_wait host site hop hn hneeds w]
  split
  · exact ⟨_, .inl rfl⟩
  · exact ⟨_, .inr ⟨rfl, rfl⟩⟩

/-- Every wait of the program can be executed. -/
def RunContext.CanWait {σ : Type} (cx : RunContext σ) : Prop :=
  ∀ (k : Nat) (i : Instruction), cx.program.instructions[k]? = some i → i.operation.waits = true →
    (∃ n, i.numberAt 0 = .ok n) ∧ i.opcode.needsCallState = true ∧
      (cx.headless && i.opcode.skippedHeadless) = false

namespace Run

variable {σ : Type} {cx : RunContext σ} {r s : Run σ} {offset : Nat} {i : Instruction}

def Armed (cx : RunContext σ) (r : Run σ) (k : Nat) : Prop := cx.program.Armed r.memory k

/-- A wait of the running script has a deadline only if the script is suspended on it. -/
def Rests (cx : RunContext σ) (r : Run σ) : Prop :=
  ∀ k, Armed cx r k → (r.script cx.script).running = false ∧ (r.script cx.script).reentry = some k

theorem callState_step_of_ne (cx : RunContext σ) (i : Instruction) (r : Run σ) {k : Nat}
    (hk : k ≠ offset) :
    (step cx offset i r).2.memory.callState k = r.memory.callState k := by
  have hperform : (perform cx offset i (arrived cx offset r)).2.memory.callState k =
      r.memory.callState k := by
    cases hskip : cx.headless && i.opcode.skippedHeadless with
    | true => rw [perform_of_skipped hskip]; rfl
    | false =>
        rcases hx : (Step.execute cx.host ⟨cx.script, offset, cx.time⟩ i).run
          ⟨entered cx r, r.memory.callState offset, r.host⟩ with ⟨result, w⟩
        have hp : perform cx offset i (arrived cx offset r) = _ := perform_of_execute hskip hx
        rw [hp]
        exact callState_record w.callState r.memory hk
  rw [step_eq]
  rcases hp : perform cx offset i (arrived cx offset r) with ⟨fault | flow, s⟩ <;>
    rw [hp] at hperform <;> exact hperform

/-- An instruction leaves no deadline but its own, if there was none but its own. -/
theorem eq_of_armed_step (honly : ∀ k, Armed cx r k → k = offset) (i : Instruction) {k : Nat}
    (harmed : Armed cx (step cx offset i r).2 k) : k = offset := by
  by_contra hk
  obtain ⟨hwait, hdeadline⟩ := harmed
  rw [callState_step_of_ne cx i r hk] at hdeadline
  exact hk (honly k ⟨hwait, hdeadline⟩)

theorem not_armed_of_step (honly : ∀ k, Armed cx r k → k = offset)
    (hi : cx.program.instructions[offset]? = some i) (hop : i.operation.waits = false) (k : Nat) :
    ¬ Armed cx (step cx offset i r).2 k := by
  intro harmed
  obtain rfl := eq_of_armed_step honly i harmed
  obtain ⟨⟨j, hj, hwaits⟩, -⟩ := harmed
  rw [Option.mem_def, hi] at hj
  cases hj
  exact absurd (hop.symm.trans hwaits) (by decide)

/-- A wait ends with the script suspended on it, or without a deadline. -/
theorem step_of_wait (hcan : cx.CanWait) (honly : ∀ k, Armed cx r k → k = offset)
    (hat : At cx r offset i) (hop : i.operation.waits = true) :
    (step cx offset i r).1 = .ok () ∧ Rests cx (step cx offset i r).2 := by
  obtain ⟨⟨n, hn⟩, hneeds, hskip⟩ := hcan offset i hat.2.2 hop
  have hlt : cx.script.actor < (entered cx r).size := by
    rw [entered, size_modifyScript]
    exact actor_lt_of_running hat.1
  obtain ⟨c, hx | ⟨hx, hnone⟩⟩ := run_execute_wait cx.host ⟨cx.script, offset, cx.time⟩ hop hn hneeds
    ⟨entered cx r, r.memory.callState offset, r.host⟩
  · have hp : perform cx offset i (arrived cx offset r) = _ := perform_of_execute hskip hx
    refine ⟨by rw [step_of_perform_ok hp], ?_⟩
    intro k harmed
    obtain rfl := eq_of_armed_step honly i harmed
    rw [step_of_perform_ok hp]
    have hscript : scriptAt (SceneScript.modifyScript (entered cx r) cx.script
        (Flow.suspend.apply k)) cx.script = _ := scriptAt_modifyScript_self hlt _
    constructor
    · exact congrArg ScriptState.running hscript
    · exact congrArg ScriptState.reentry hscript
  · have hp : perform cx offset i (arrived cx offset r) = _ := perform_of_execute hskip hx
    refine ⟨by rw [step_of_perform_ok hp], ?_⟩
    intro k harmed
    obtain rfl := eq_of_armed_step honly i harmed
    have hdeadline := harmed.2
    rw [step_of_perform_ok hp] at hdeadline
    change ((record i k c r.memory).callState k).deadline.isSome = true at hdeadline
    rw [callState_record_self hneeds, hnone] at hdeadline
    cases hdeadline

/-- **A step** leaves no deadline but that of a wait the script is suspended on, if there was none
but that of the instruction it executes. -/
theorem Rests.of_step (hcan : cx.CanWait) (honly : ∀ k, Armed cx r k → k = offset)
    (hat : At cx r offset i) (hstep : step cx offset i r = (.ok (), s)) : Rests cx s := by
  cases hop : i.operation.waits with
  | true =>
      have hrests := (step_of_wait hcan honly hat hop).2
      rwa [hstep] at hrests
  | false =>
      have hnone := not_armed_of_step honly hat.2.2 hop
      rw [hstep] at hnone
      exact fun k harmed => absurd harmed (hnone k)

theorem not_armed_of_fault (hcan : cx.CanWait) (honly : ∀ k, Armed cx r k → k = offset)
    (hat : At cx r offset i) {fault : Fault} (hstep : step cx offset i r = (.error fault, s))
    (k : Nat) : ¬ Armed cx s k := by
  cases hop : i.operation.waits with
  | true =>
      have hok := (step_of_wait hcan honly hat hop).1
      rw [hstep] at hok
      cases hok
  | false =>
      have hnone := not_armed_of_step honly hat.2.2 hop
      rw [hstep] at hnone
      exact hnone k

theorem Rests.not_armed (h : Rests cx r) (hrun : (r.script cx.script).running = true) (k : Nat) :
    ¬ Armed cx r k := by
  intro harmed
  exact absurd (hrun.symm.trans (h k harmed).1) (by decide)

/-- **A run** that stops has a deadline left only if it ended suspended on the wait. -/
theorem Rests.drive (hcan : cx.CanWait) (h : Rests cx r) (gas k : Nat)
    (harmed : Armed cx (Run.drive cx gas r).2 k) :
    (Run.drive cx gas r).1 = .ok () ∧
      ((Run.drive cx gas r).2.script cx.script).reentry = some k := by
  have hstep : ∀ {u v : Run σ} {offset : Nat} {i : Instruction}, At cx u offset i →
      step cx offset i u = (.ok (), v) → Rests cx u → Rests cx v := by
    intro u v offset i hat hstep hu
    exact .of_step hcan (fun k harmed => absurd harmed (hu.not_armed hat.1 k)) hat hstep
  obtain ⟨n, s, -, hsteps, hstops⟩ := drive_stops cx gas r
  have hs : Rests cx s := hsteps.invariant hstep h
  generalize Run.drive cx gas r = o at harmed hstops
  cases hstops with
  | ended => exact ⟨rfl, (hs k harmed).2⟩
  | overrun hrun => exact absurd harmed (hs.not_armed hrun k)
  | exhausted hat => exact absurd harmed (hs.not_armed hat.1 k)
  | @fault offset i f after hat hfault =>
      have honly : ∀ j, Armed cx s j → j = offset := fun j hj => absurd hj (hs.not_armed hat.1 j)
      exact absurd harmed (not_armed_of_fault hcan honly hat hfault k)

/-- The same of a run that starts with the deadline of the wait it starts at. -/
theorem drive_of_armed (hcan : cx.CanWait)
    (honly : ∀ k, Armed cx r k → k = (r.script cx.script).offset)
    (hrun : (r.script cx.script).running = true) {gas : Nat} (hgas : 0 < gas) {k : Nat}
    (harmed : Armed cx (drive cx gas r).2 k) :
    (drive cx gas r).1 = .ok () ∧ ((drive cx gas r).2.script cx.script).reentry = some k := by
  obtain ⟨gas, rfl⟩ : ∃ rest, gas = rest + 1 := Nat.exists_eq_add_one.mpr hgas
  cases hi : cx.program.instructions[(r.script cx.script).offset]? with
  | none =>
      rw [drive_of_overrun hrun hi] at harmed
      have hk := honly k harmed
      obtain ⟨⟨i, hwait, -⟩, -⟩ := harmed
      rw [hk, hi] at hwait
      cases hwait
  | some i =>
      have hat : At cx r (r.script cx.script).offset i := ⟨hrun, rfl, hi⟩
      rw [drive_succ_of_at hat] at harmed ⊢
      rcases hs : step cx (r.script cx.script).offset i r with ⟨fault | u, s⟩
      · rw [hs] at harmed
        exact absurd harmed (not_armed_of_fault hcan honly hat hs k)
      · rw [hs] at harmed
        exact (Rests.of_step hcan honly hat hs).drive hcan gas k harmed

end Run

/-! ### Other scripts -/

/-- The instruction sets where another script resumes. -/
def Operation.displaces : Operation → Bool
  | .setBehaviourObj | .restoreBehaviourObj | .setTrack | .setTrackObj | .stopCurrentTrack
  | .stopCurrentTrackObj | .restoreLastTrack | .restoreLastTrackObj => true
  | _ => false

theorem Effect.reentry {site : Site} {i : Instruction} {states : Array ActorState} {flow : Flow}
    {script : ScriptId} {f : ScriptState → ScriptState} (he : Effect site i states flow script f)
    (hop : i.operation.displaces = false) (s : ScriptState) : (f s).reentry = s.reentry := by
  cases he with
  | sendBehavior h | resumeBehavior h | sendTrack h | sendTrackOf h | stopTrack h | stopTrackOf h
  | resumeTrack h | resumeTrackOf h =>
      rw [h] at hop
      cases hop
  | _ => rfl

/-- No other instruction sets where a script resumes, if the game does not. -/
theorem Acts.reentry {σ : Type} {host : Host σ} (hhost : host.Keeps) {site : Site}
    {i : Instruction} {states : Array ActorState} {c : CallState} {result : Except Fault Flow}
    {w : World σ} (hacts : Acts host site i states c result w)
    (hop : i.operation.displaces = false) (id : ScriptId) :
    (scriptAt w.states id).reentry = (scriptAt states id).reentry :=
  hacts.keeps hhost ScriptState.reentry (fun he => he.reentry hop) id

namespace Run

variable {σ : Type} {cx : RunContext σ}

/-- From one run to a later one another script resumes where it did, unless an instruction executed
by then displaces scripts. -/
def Undisplaced (cx : RunContext σ) (id : ScriptId) (r s : Run σ) : Prop :=
  (scriptAt s.states id).reentry ≠ (scriptAt r.states id).reentry →
    ∃ i ∈ executed cx s, i.operation.displaces = true

theorem reentry_step (hhost : cx.host.Keeps) {id : ScriptId} (hne : id ≠ cx.script) {offset : Nat}
    {i : Instruction} (hop : i.operation.displaces = false) (r : Run σ) :
    (scriptAt (step cx offset i r).2.states id).reentry = (scriptAt r.states id).reentry := by
  obtain ⟨c, result, w, hacts, -, hstates⟩ := step_acts cx offset i r
  have hw : (scriptAt w.states id).reentry = (scriptAt r.states id).reentry := by
    rw [hacts.reentry hhost hop, entered, scriptAt_modifyScript_of_ne hne]
  rw [hstates, ← hw]
  cases result with
  | ok flow => exact congrArg ScriptState.reentry (scriptAt_modifyScript_of_ne hne _)
  | error f => rfl

theorem Undisplaced.step (hhost : cx.host.Keeps) {id : ScriptId} (hne : id ≠ cx.script)
    {r s : Run σ} (h : Undisplaced cx id r s) {offset : Nat} {i : Instruction}
    (hi : cx.program.instructions[offset]? = some i) :
    Undisplaced cx id r (Run.step cx offset i s).2 := by
  intro hdiffers
  rw [executed_step hi]
  cases hskip : cx.headless && i.opcode.skippedHeadless with
  | true =>
      have hstates : scriptAt (Run.step cx offset i s).2.states id = scriptAt s.states id := by
        rw [step_of_skipped hskip]
        exact (scriptAt_modifyScript_of_ne hne _).trans (scriptAt_modifyScript_of_ne hne _)
      rw [hstates] at hdiffers
      obtain ⟨j, hj, hdisplaces⟩ := h hdiffers
      exact ⟨j, List.mem_append_left _ hj, hdisplaces⟩
  | false =>
      cases hop : i.operation.displaces with
      | true => exact ⟨i, by simp, hop⟩
      | false =>
          rw [reentry_step hhost hne hop] at hdiffers
          obtain ⟨j, hj, hdisplaces⟩ := h hdiffers
          exact ⟨j, List.mem_append_left _ hj, hdisplaces⟩

theorem Undisplaced.drive (hhost : cx.host.Keeps) {id : ScriptId} (hne : id ≠ cx.script)
    (gas : Nat) (r : Run σ) : Undisplaced cx id r (Run.drive cx gas r).2 := by
  have hstep : ∀ {u v : Run σ} {offset : Nat} {i : Instruction}, At cx u offset i →
      Run.step cx offset i u = (.ok (), v) → Undisplaced cx id r u → Undisplaced cx id r v := by
    intro u v offset i hat hstep hu
    have hv := hu.step hhost hne hat.2.2
    rwa [hstep] at hv
  obtain ⟨n, s, -, hsteps, hstops⟩ := drive_stops cx gas r
  have hs : Undisplaced cx id r s := hsteps.invariant hstep fun h => absurd rfl h
  generalize Run.drive cx gas r = o at hstops
  cases hstops with
  | ended | overrun | exhausted => exact hs
  | fault hat hfault =>
      have hafter := hs.step hhost hne hat.2.2
      rwa [hfault] at hafter

end Run

/-! ### Scenes -/

namespace Scene

variable {σ : Type} {s : Scene} {source : SceneSource}

def Armed (s : Scene) (id : ScriptId) (k : Nat) : Prop :=
  ∃ p ∈ s.program? id, p.Armed (s.scratch id) k

instance (s : Scene) (id : ScriptId) (k : Nat) : Decidable (s.Armed id k) :=
  inferInstanceAs (Decidable (∃ p ∈ s.program? id, _))

/-- **Waits and scripts agree**: a wait with a deadline is the one its script is suspended on. -/
def WaitConsistent (s : Scene) : Prop :=
  ∀ id k, s.Armed id k → (scriptAt s.states id).reentry = some k

theorem not_armed_empty (p : Program) (k : Nat) : ¬ p.Armed {} k := by
  rintro ⟨-, hdeadline⟩
  cases hdeadline

theorem states_outcome (s : Scene) (id : ScriptId) (o : Except Fault Unit × Run σ) :
    (s.outcome id o).scene.states =
      match o.1 with
      | .ok _ => o.2.states
      | .error _ => modifyScript o.2.states id ScriptState.terminate := by
  rcases o with ⟨fault | u, r⟩ <;> rfl

theorem scratch_outcome (s : Scene) (id : ScriptId) (o : Except Fault Unit × Run σ) :
    (s.outcome id o).scene.scratch id = o.2.memory ∨ (s.outcome id o).scene.scratch id = {} := by
  have hmemory : (s.outcome id o).scene.memory =
      s.memory.modify id.actor fun m => m.set id.kind o.2.memory := by
    rcases o with ⟨fault | u, r⟩ <;> rfl
  rw [scratch, hmemory, Array.getD_eq_getD_getElem?, Array.getElem?_modify, if_pos rfl]
  cases s.memory[id.actor]? with
  | none => right; cases id.kind <;> rfl
  | some m => left; cases id.kind <;> rfl

theorem Plays.canWait (hs : s.Plays source) {id : ScriptId} {program : Program}
    (hp : s.program? id = some program) (host : Host σ) (time : FrameTime) :
    (s.context host id program time).CanWait := by
  intro k i hi hop
  have hsound := hs.sound hp hi
  have hwait : i.operation.counts = true ∧ i.operation.remembers = true ∧
      i.operation.isHosted = false := by
    cases h : i.operation <;> rw [h] at hop <;> first | exact ⟨rfl, rfl, rfl⟩ | cases hop
  obtain ⟨n, hn⟩ := hsound.number hwait.1
  refine ⟨⟨n, ?_⟩, hsound.record hwait.2.1, hs.not_skipped hp hi hwait.2.2 _⟩
  rw [Instruction.numberAt, hn]
  rfl

/-! ### Running a script -/

theorem reentry_of_armed (hs : s.Plays source) (hwaits : s.WaitConsistent)
    (hgas : 0 < s.config.gasLimit) (host : Host σ) (h : σ) {id : ScriptId} (time : FrameTime)
    {k : Nat} (harmed : (s.runScript host h id time).scene.Armed id k) :
    (scriptAt (s.runScript host h id time).scene.states id).reentry = some k := by
  obtain ⟨program, hp, hwait⟩ := harmed
  rw [Option.mem_def, program?_runScript] at hp
  cases hr : (scriptAt s.states id).reentry with
  | none =>
      rw [runScript_of_ended hp hr] at hwait ⊢
      rcases scratch_outcome s id (.ok (), s.ready h id) with hm | hm <;> rw [hm] at hwait
      · exact hwaits id k ⟨program, hp, hwait⟩
      · exact absurd hwait (not_armed_empty program k)
  | some start =>
      rw [runScript_of_reentry hp hr] at hwait ⊢
      have hscript : (s.started h id start).script id =
          { scriptAt s.states id with offset := start, running := true } :=
        scriptAt_modifyScript_self (hs.actor_lt hp) _
      -- The script starts at the only wait of its own that has a deadline.
      have honly : ∀ j, Run.Armed (s.context host id program time) (s.started h id start) j →
          j = ((s.started h id start).script id).offset := by
        intro j hj
        have hj' := hwaits id j ⟨program, hp, hj⟩
        rw [hr] at hj'
        rw [hscript]
        exact (Option.some.inj hj').symm
      have hrun : ((s.started h id start).script id).running = true := by rw [hscript]
      generalize hd : Run.drive (s.context host id program time) s.config.gasLimit
        (s.started h id start) = o at hwait ⊢
      rcases scratch_outcome s id o with hm | hm <;> rw [hm] at hwait
      · rw [← hd] at hwait
        obtain ⟨hok, hreentry⟩ :=
          Run.drive_of_armed (hs.canWait hp host time) honly hrun hgas hwait
        rw [hd] at hok hreentry
        rw [states_outcome, hok]
        exact hreentry
      · exact absurd hwait (not_armed_empty program k)

/-- Another script resumes where it did, unless an instruction that ran displaces scripts. -/
theorem displaces_of_reentry {host : Host σ} (hhost : host.Keeps) {h : σ} {id other : ScriptId}
    {time : FrameTime} (hne : other ≠ id)
    (hdiffers : (scriptAt (s.runScript host h id time).scene.states other).reentry ≠
      (scriptAt s.states other).reentry) :
    ∃ i ∈ s.executed id (s.runScript host h id time).visited, i.operation.displaces = true := by
  cases hp : s.program? id with
  | none => exact absurd (by simp [runScript, hp]) hdiffers
  | some program =>
      cases hr : (scriptAt s.states id).reentry with
      | none =>
          rw [(runScript_of_terminated hp hr host h time).2] at hdiffers
          exact absurd rfl hdiffers
      | some start =>
          rw [executed_of_program hp]
          rw [runScript_of_reentry hp hr] at hdiffers ⊢
          have hbefore : scriptAt (s.started h id start).states other = scriptAt s.states other :=
            scriptAt_modifyScript_of_ne hne _
          have hdrive : Run.Undisplaced (s.context host id program time) other
              (s.started h id start) _ := .drive hhost hne s.config.gasLimit (s.started h id start)
          rw [outcome_visited]
          refine hdrive ?_
          rw [hbefore]
          generalize Run.drive (s.context host id program time) s.config.gasLimit
            (s.started h id start) = o at hdiffers ⊢
          rw [states_outcome] at hdiffers
          rcases o with ⟨fault | u, r⟩
          · rwa [scriptAt_modifyScript_of_ne hne] at hdiffers
          · exact hdiffers

theorem armed_runScript_of_ne (host : Host σ) (h : σ) {id other : ScriptId} (time : FrameTime)
    (hne : other ≠ id) (k : Nat) :
    (s.runScript host h id time).scene.Armed other k ↔ s.Armed other k := by
  unfold Armed
  rw [program?_runScript, scratch_runScript_of_ne hne]

/-- A run keeps a scene consistent unless it moves another script that waits. -/
theorem waitConsistent_runScript_iff (hs : s.Plays source) (hwaits : s.WaitConsistent)
    (hgas : 0 < s.config.gasLimit) (host : Host σ) (h : σ) (id : ScriptId) (time : FrameTime) :
    (s.runScript host h id time).scene.WaitConsistent ↔ ∀ other k, other ≠ id → s.Armed other k →
      (scriptAt (s.runScript host h id time).scene.states other).reentry = some k := by
  constructor
  · intro hafter other k hne harmed
    exact hafter other k ((armed_runScript_of_ne host h time hne k).mpr harmed)
  · intro hothers other k harmed
    by_cases hne : other = id
    · subst hne
      exact reentry_of_armed hs hwaits hgas host h time harmed
    · exact hothers other k hne ((armed_runScript_of_ne host h time hne k).mp harmed)

theorem waitConsistent_runScript (hs : s.Plays source) (hwaits : s.WaitConsistent)
    (hgas : 0 < s.config.gasLimit) {host : Host σ} (hhost : host.Keeps) (h : σ) (id : ScriptId)
    (time : FrameTime)
    (hplain : ∀ i ∈ s.executed id (s.runScript host h id time).visited,
      i.operation.displaces = false) : (s.runScript host h id time).scene.WaitConsistent := by
  rw [waitConsistent_runScript_iff hs hwaits hgas]
  intro other k hne harmed
  by_contra hdiffers
  rw [← hwaits other k harmed] at hdiffers
  obtain ⟨i, hi, hdisplaces⟩ := displaces_of_reentry hhost hne hdiffers
  exact absurd (hdisplaces.symm.trans (hplain i hi)) (by decide)

/-! ### Frames -/

/-- No script of the scene has an instruction that displaces scripts. -/
def Undisplacing (s : Scene) : Prop :=
  ∀ a ∈ s.programs, ∀ kind ∈ ScriptKind.all, ∀ i ∈ (a.program kind).instructions,
    i.operation.displaces = false

instance (s : Scene) : Decidable s.Undisplacing :=
  inferInstanceAs (Decidable (∀ a ∈ s.programs, _))

theorem displaces_of_mem_executed (hplain : s.Undisplacing) {id : ScriptId} {visited : List Nat}
    {i : Instruction} (hi : i ∈ s.executed id visited) : i.operation.displaces = false := by
  unfold executed at hi
  split at hi
  · cases hi
  · next p hp =>
      obtain ⟨k, -, hk⟩ := List.mem_filterMap.mp (List.mem_filter.mp hi).1
      obtain ⟨a, ha, rfl⟩ := Option.map_eq_some_iff.mp hp
      have hkind : id.kind ∈ ScriptKind.all := by cases id.kind <;> decide
      exact hplain a (Array.mem_of_getElem? ha) id.kind hkind i (Array.mem_of_getElem? hk)

/-- What holds between the scripts of a frame, in a scene whose scripts displace none. -/
structure FrameProgress.Consistent (p : FrameProgress σ) (source : SceneSource) : Prop where
  plays : p.scene.Plays source
  waits : p.scene.WaitConsistent
  gas : 0 < p.scene.config.gasLimit
  plain : p.scene.Undisplacing

theorem FrameProgress.Consistent.run {p : FrameProgress σ} (hp : p.Consistent source)
    {host : Host σ} (hhost : host.Keeps) (time : FrameTime) (id : ScriptId) :
    (p.run host time id).Consistent source := by
  refine ⟨hp.plays.runScript host p.host id time, ?_, ?_, ?_⟩
  · exact waitConsistent_runScript hp.plays hp.waits hp.gas hhost p.host id time
      fun i hi => displaces_of_mem_executed hp.plain hi
  · change 0 < (p.scene.runScript host p.host id time).scene.config.gasLimit
    rw [config_runScript]
    exact hp.gas
  · intro a ha
    change a ∈ (p.scene.runScript host p.host id time).scene.programs at ha
    rw [programs_runScript] at ha
    exact hp.plain a ha

theorem FrameProgress.Consistent.foldl {host : Host σ} (hhost : host.Keeps) (time : FrameTime)
    (ids : List ScriptId) {p : FrameProgress σ} (hp : p.Consistent source) :
    (ids.foldl (fun p id => p.run host time id) p).Consistent source := by
  induction ids generalizing p with
  | nil => exact hp
  | cons id ids ih => exact ih (hp.run hhost time id)

theorem waitConsistent_runFrame (hs : s.Plays source) (hwaits : s.WaitConsistent)
    (hgas : 0 < s.config.gasLimit) (hplain : s.Undisplacing) {host : Host σ} (hhost : host.Keeps)
    (h : σ) (time : FrameTime) : (s.runFrame host h time).2.1.WaitConsistent := by
  have hstart : FrameProgress.Consistent
      ⟨{ s with frame := s.frame + 1 }, h, { frame := s.frame + 1 }, []⟩ source :=
    ⟨⟨hs.programs, hs.size⟩, hwaits, hgas, hplain⟩
  exact (hstart.foldl hhost time s.scripts).waits

/-! ### Actors and snapshots -/

/-- Setting the states of one actor keeps a scene consistent exactly if its scripts still agree with
their waits. -/
theorem waitConsistent_modify_iff (hwaits : s.WaitConsistent) {a : Nat} (ha : a < s.states.size)
    (f : ActorState → ActorState) :
    ({ s with states := s.states.modify a f } : Scene).WaitConsistent ↔
      ∀ kind k, s.Armed ⟨a, kind⟩ k → ((f (s.states.getD a {})).get kind).reentry = some k := by
  have hself : ∀ kind, scriptAt (s.states.modify a f) ⟨a, kind⟩ = (f (s.states.getD a {})).get kind := by
    intro kind
    simp only [scriptAt, Array.getD_eq_getD_getElem?, Array.getElem?_modify, if_true,
      Array.getElem?_eq_getElem ha, Option.map_some, Option.getD_some]
  constructor
  · intro hafter kind k harmed
    rw [← hself]
    exact hafter ⟨a, kind⟩ k harmed
  · intro hactor id k harmed
    change (scriptAt (s.states.modify a f) id).reentry = some k
    rcases scriptAt_modify_cases s.states a f id with heq | ⟨rfl, heq⟩
    · rw [heq]
      exact hwaits id k harmed
    · rw [heq]
      exact hactor id.kind k harmed

/-- Killing an actor ends its scripts and leaves their deadlines. -/
theorem waitConsistent_killActor_iff (hwaits : s.WaitConsistent) {a : Nat} {t : Scene}
    (h : s.killActor a = .ok t) : t.WaitConsistent ↔ ∀ kind k, ¬ s.Armed ⟨a, kind⟩ k := by
  unfold killActor at h
  split at h
  · next ha =>
      cases h
      rw [waitConsistent_modify_iff hwaits ha]
      refine forall_congr' fun kind => forall_congr' fun k => imp_congr_right fun _ => ?_
      cases kind <;> simp [ActorState.get, ScriptState.terminate]
  · cases h

/-- Reviving an actor starts its scripts anew and leaves their deadlines. -/
theorem waitConsistent_reviveActor_iff (hs : s.Plays source) (hwaits : s.WaitConsistent) {a : Nat}
    {t : Scene} (h : s.reviveActor a = .ok t) :
    t.WaitConsistent ↔ ∀ kind k, s.Armed ⟨a, kind⟩ k → k = 0 := by
  unfold reviveActor at h
  split at h
  · cases h
  · next programs hprograms =>
      cases h
      have hlife : s.program? (.life a) = some programs.life := by
        rw [program?, ScriptId.life, hprograms]
        rfl
      have ha : a < s.states.size := hs.actor_lt hlife
      rw [waitConsistent_modify_iff hwaits ha]
      refine forall_congr' fun kind => forall_congr' fun k => forall_congr' fun harmed => ?_
      -- A script with a wait is not empty, so it starts at its first instruction.
      obtain ⟨p, hp, ⟨i, hi, -⟩, -⟩ := harmed
      rw [Option.mem_def, program?, hprograms] at hp
      obtain rfl : programs.program kind = p := Option.some.inj hp
      have hsome : (programs.program kind).instructions.isEmpty = false := by
        have hlt := (Array.getElem?_eq_some_iff.mp hi).1
        rw [Array.isEmpty_eq_false_iff, ne_eq, ← Array.size_eq_zero_iff]
        omega
      cases kind with
      | life =>
          have hlife : programs.life.instructions.isEmpty = false := hsome
          simp [ActorState.get, restart, hlife, eq_comm]
      | move =>
          have hmoves : programs.moves.instructions.isEmpty = false := hsome
          simp [ActorState.get, restart, hmoves, eq_comm]

/-- A restored scene has no deadline. -/
theorem waitConsistent_restore {x : Snapshot} {t : Scene} (h : s.restore x = .ok t) :
    t.WaitConsistent := by
  rintro id k ⟨p, -, -, hdeadline⟩
  rw [callState_of_restore h] at hdeadline
  cases hdeadline

theorem waitConsistent_ofCompiled (c : CompiledScene) (config : Config) :
    (ofCompiled c config).WaitConsistent := by
  rintro id k ⟨p, -, hwait⟩
  have hfresh : (ofCompiled c config).scratch id = {} := by
    rw [scratch, ofCompiled, Array.getD_eq_getD_getElem?, Array.getElem?_map]
    cases c.actors[id.actor]? <;> cases id.kind <;> rfl
  rw [hfresh] at hwait
  exact absurd hwait (not_armed_empty p k)

/-- **What keeps waits and scripts in agreement.** In a consistent scene with a game that leaves the
states of its callers alone, running a script keeps the agreement except for other scripts that wait
and are moved meanwhile, which takes an instruction that displaces scripts; so a frame keeps it if
there is no such instruction. Killing an actor keeps it only if no script of the actor waits, and
reviving one only if none waits anywhere but at its start. Restoring a snapshot always does. -/
theorem waitConsistent_kept (hs : s.Plays source) (hwaits : s.WaitConsistent)
    (hgas : 0 < s.config.gasLimit) {host : Host σ} (hhost : host.Keeps) (h : σ)
    (time : FrameTime) :
    (∀ id,
      let o := s.runScript host h id time
      (o.scene.WaitConsistent ↔ ∀ other k, other ≠ id → s.Armed other k →
        (scriptAt o.scene.states other).reentry = some k) ∧
      (¬ o.scene.WaitConsistent →
        ∃ i ∈ s.executed id o.visited, i.operation.displaces = true)) ∧
    (s.Undisplacing → (s.runFrame host h time).2.1.WaitConsistent) ∧
    (∀ a t, s.killActor a = .ok t →
      (t.WaitConsistent ↔ ∀ kind k, ¬ s.Armed ⟨a, kind⟩ k)) ∧
    (∀ a t, s.reviveActor a = .ok t →
      (t.WaitConsistent ↔ ∀ kind k, s.Armed ⟨a, kind⟩ k → k = 0)) ∧
    ∀ x t, s.restore x = .ok t → t.WaitConsistent := by
  refine ⟨?_, ?_, ?_, ?_, ?_⟩
  · intro id o
    refine ⟨waitConsistent_runScript_iff hs hwaits hgas host h id time, ?_⟩
    intro hbroken
    by_contra hnone
    refine hbroken (waitConsistent_runScript hs hwaits hgas hhost h id time ?_)
    intro i hi
    exact Bool.eq_false_iff.mpr fun hdisplaces => hnone ⟨i, hi, hdisplaces⟩
  · intro hplain
    exact waitConsistent_runFrame hs hwaits hgas hplain hhost h time
  · intro a t hkill
    exact waitConsistent_killActor_iff hwaits hkill
  · intro a t hrevive
    exact waitConsistent_reviveActor_iff hs hwaits hrevive
  · intro x t hrestore
    exact waitConsistent_restore hrestore

/-- An actor that waits for five seconds: the frame leaves it suspended on its wait. -/
theorem waitConsistent_kept_waiting :
    let source : SceneSource := { actors := [{ moves := [0x09, 3, 0x12, 5, 0, 0, 0, 0, 0x0B] }] }
    let s := ofCompiled (compileScene .standard source) {}
    let t := (s.runFrame .quiet () {}).2.1
    s.Undisplacing ∧ t.Armed (.move 0) 1 ∧ t.WaitConsistent ∧
      (scriptAt t.states (.move 0)).reentry = some 1 := by
  intro source s t
  have hplain : s.Undisplacing := by decide +kernel
  have harmed : t.Armed (.move 0) 1 := by decide +kernel
  have hkeeps : Host.quiet.Keeps := fun _ _ => rfl
  obtain ⟨-, hframe, -⟩ := waitConsistent_kept (plays_ofCompiled source {})
    (waitConsistent_ofCompiled _ {}) (by decide) hkeeps () {}
  exact ⟨hplain, harmed, hframe hplain, hframe hplain (.move 0) 1 harmed⟩

/-- The same actor killed and revived while it waits: the deadline outlives both, and the wait, met
anew ten seconds later, is over at once. -/
theorem waitConsistent_killed :
    let source : SceneSource := { actors := [{ moves := [0x09, 3, 0x12, 5, 0, 0, 0, 0, 0x0B] }] }
    let s := ofCompiled (compileScene .standard source) {}
    let t := (s.runFrame .quiet () {}).2.1
    let killed := (t.serve () (.kill 0)).2.1
    let revived := (killed.serve () (.revive 0)).2.1
    t.WaitConsistent ∧ ¬ killed.WaitConsistent ∧ ¬ revived.WaitConsistent ∧
      (revived.runFrame .quiet () { elapsed := .ofInt 10 }).1.steps = 3 := by
  intro source s t killed revived
  have hplain : s.Undisplacing := by decide +kernel
  have hkeeps : Host.quiet.Keeps := fun _ _ => rfl
  have ht : t.WaitConsistent := waitConsistent_runFrame (plays_ofCompiled source {})
    (waitConsistent_ofCompiled _ {}) (by decide) hplain hkeeps () {}
  refine ⟨ht, ?_, ?_, by decide +kernel⟩
  · intro hkilled
    have harmed : killed.Armed (.move 0) 1 := by decide +kernel
    exact absurd (hkilled (.move 0) 1 harmed) (by decide +kernel)
  · intro hrevived
    have harmed : revived.Armed (.move 0) 1 := by decide +kernel
    exact absurd (hrevived (.move 0) 1 harmed) (by decide +kernel)

end Scene

end SceneScript
