import SceneScript.Proofs.Isolation

/-! # Redirected life scripts

An instruction may redirect the life script of an actor: send it to a behavior, or back to the one
it keeps. What becomes of the resume point it writes depends on whose script it is.

* Another actor's keeps it: no instruction but a later redirection writes there, so after the run it
  resumes where the last redirection sent it (`Run.Sent`, `Steps.sent`).
* The running script's own does not: every instruction starts by clearing it, and the instruction
  the run ends with writes its own (`reentry_of_last`).

`reentry_of_sentLast` says both at once for a run of a life script. -/

namespace SceneScript

/-! ### The last redirection -/

/-- The instruction redirects the life script of an actor. -/
def Instruction.redirects (i : Instruction) (a : Nat) : Bool :=
  decide (i.operation ∈ [.setBehaviourObj, .restoreBehaviourObj] ∧
    i.operands[0]? = some (.actor a))

theorem Instruction.redirects_of_names {i : Instruction} {a : Nat}
    (hop : i.operation ∈ [.setBehaviourObj, .restoreBehaviourObj])
    (ha : i.operands[0]? = some (.actor a)) : i.redirects a = true :=
  decide_eq_true ⟨hop, ha⟩

/-- The last of the instructions that redirects the life script of an actor. -/
def lastRedirect? (executed : List Instruction) (a : Nat) : Option Instruction :=
  (executed.filter fun i => i.redirects a).getLast?

/-- The last of the instructions that redirects the life script of an actor sends it to `t`. -/
def SentLast (executed : List Instruction) (a t : Nat) : Prop :=
  ∃ i ∈ lastRedirect? executed a, i.operation = .setBehaviourObj ∧
    i.operands[1]? = some (.target t)

instance (executed : List Instruction) (a t : Nat) : Decidable (SentLast executed a t) :=
  inferInstanceAs (Decidable (∃ i ∈ lastRedirect? executed a, _))

theorem not_sentLast_nil (a t : Nat) : ¬ SentLast [] a t := by
  rintro ⟨i, hi, -⟩
  cases hi

theorem lastRedirect?_append_of_redirects {i : Instruction} {a : Nat} (h : i.redirects a = true)
    (executed : List Instruction) : lastRedirect? (executed ++ [i]) a = some i := by
  simp [lastRedirect?, h]

theorem lastRedirect?_append_of_not {i : Instruction} {a : Nat} (h : i.redirects a = false)
    (executed : List Instruction) :
    lastRedirect? (executed ++ [i]) a = lastRedirect? executed a := by
  simp [lastRedirect?, h]

theorem mem_of_lastRedirect? {executed : List Instruction} {a : Nat} {i : Instruction}
    (h : lastRedirect? executed a = some i) : i ∈ executed ∧ i.redirects a = true :=
  List.mem_filter.mp (List.mem_of_getLast? h)

/-! ### Other actors -/

/-- Sending a life script to a behavior writes where it resumes, and nothing else. -/
theorem ends_setBehaviorOf {σ : Type} {host : Host σ} {site : Site} {i : Instruction}
    (hop : i.operation = .setBehaviourObj) (w : World σ) :
    (Step.execute host site i).Ends w fun result after =>
      ∀ flow, result = .ok flow → ∃ a t, a < w.states.size ∧ i.operands[0]? = some (.actor a) ∧
        i.operands[1]? = some (.target t) ∧
        after.states = modifyScript w.states (.life a) fun s => { s with reentry := some t } := by
  obtain ⟨states, c, h⟩ := w
  have hactor : Reads site i states c (Step.actorOf i i.operands[0]? : Exec σ Nat) _ :=
    .namedActor (by rw [hop]; rfl)
  have htarget : Reads site i states c (Step.demand i (i.targetAt 1) : Exec σ Nat) _ :=
    .target (by rw [hop]; rfl)
  unfold Step.execute
  rw [hop]
  refine Exec.ends_bind.mpr ((hactor h).imp ?_)
  rintro (fault | a) ⟨states', c', h'⟩ ⟨rfl, rfl, ha⟩
  · rintro flow ⟨⟩
  refine Exec.ends_bind.mpr ((htarget h').imp ?_)
  rintro (fault | t) ⟨states', c', h''⟩ ⟨rfl, rfl, ht⟩
  · rintro flow ⟨⟩
  · exact fun flow _ => ⟨a, t, ha.2, ha.1, ht, rfl⟩

/-- Where the life script of another actor resumes is changed by redirecting it only. -/
theorem Effect.reentry_of_not_redirects {site : Site} {i : Instruction}
    {states : Array ActorState} {flow : Flow} {script : ScriptId} {f : ScriptState → ScriptState}
    (he : Effect site i states flow script f) (hne : script.actor ≠ site.script.actor)
    (hkind : script.kind = .life) (h : i.redirects script.actor = false) (s : ScriptState) :
    (f s).reentry = s.reentry := by
  cases he with
  | sendBehavior hop ha | resumeBehavior hop ha =>
      have hredirects := Instruction.redirects_of_names (by simp [hop]) ha
      exact absurd (hredirects.symm.trans h) (by decide)
  | saveBehaviorOf => rfl
  | sendTrackOf | stopTrackOf | resumeTrackOf => cases hkind
  | _ => exact absurd rfl hne

theorem Acts.reentry_of_not_redirects {σ : Type} {host : Host σ} {site : Site} {i : Instruction}
    {states : Array ActorState} {c : CallState} {result : Except Fault Flow} {w : World σ}
    (hacts : Acts host site i states c result w) {a : Nat} (hne : a ≠ site.script.actor)
    (h : i.redirects a = false) :
    (scriptAt w.states (.life a)).reentry = (scriptAt states (.life a)).reentry := by
  cases hacts with
  | @effect flow script f _ he hstates _ =>
      rw [hstates]
      rcases scriptAt_modifyScript_cases states script f (.life a) with heq | ⟨rfl, heq⟩
      · rw [heq]
      · rw [heq]
        exact he.reentry_of_not_redirects hne rfl h _
  | fault _ hstates _ => rw [hstates]
  | hosted _ _ hstates =>
      rw [hstates]
      rcases scriptAt_modify_cases states site.script.actor _ (.life a) with heq | ⟨hactor, -⟩
      · rw [heq]
      · exact absurd hactor hne

namespace Run

variable {σ : Type} {cx : RunContext σ}

/-- The life script of an actor resumes where it was sent, if a redirection executed by then sent it
somewhere. -/
def Sent (cx : RunContext σ) (a : Nat) (r : Run σ) : Prop :=
  ∀ t, SentLast (executed cx r) a t → (scriptAt r.states (.life a)).reentry = some t

theorem step_of_setBehaviorOf {r s : Run σ} {offset : Nat} {i : Instruction}
    (hop : i.operation = .setBehaviourObj)
    (hskip : (cx.headless && i.opcode.skippedHeadless) = false)
    (hstep : step cx offset i r = (.ok (), s)) :
    ∃ a t, a < r.states.size ∧ i.operands[0]? = some (.actor a) ∧
      i.operands[1]? = some (.target t) ∧
      (a ≠ cx.script.actor → (scriptAt s.states (.life a)).reentry = some t) := by
  have hends : (Step.execute cx.host ⟨cx.script, offset, cx.time⟩ i).Ends
      ⟨entered cx r, r.memory.callState offset, r.host⟩ _ := ends_setBehaviorOf hop _
  rcases hx : (Step.execute cx.host ⟨cx.script, offset, cx.time⟩ i).run
    ⟨entered cx r, r.memory.callState offset, r.host⟩ with ⟨result, w⟩
  unfold Exec.Ends at hends
  rw [hx] at hends
  have hperform : perform cx offset i (arrived cx offset r) = _ := perform_of_execute hskip hx
  cases result with
  | error f =>
      rw [step_of_perform_error hperform] at hstep
      cases hstep
  | ok flow =>
      obtain ⟨a, t, hlt, ha, ht, hstates⟩ := hends flow rfl
      rw [step_of_perform_ok hperform] at hstep
      cases hstep
      rw [entered, size_modifyScript] at hlt
      refine ⟨a, t, hlt, ha, ht, ?_⟩
      intro hne
      have hid : ScriptId.life a ≠ cx.script := fun he => hne (congrArg ScriptId.actor he)
      change (scriptAt (SceneScript.modifyScript w.states cx.script _) _).reentry = _
      have hlife : (ScriptId.life a).actor < (entered cx r).size := by
        rw [entered, size_modifyScript]
        exact hlt
      rw [scriptAt_modifyScript_of_ne hid, hstates, scriptAt_modifyScript_self hlife]

theorem Sent.step {a : Nat} (ha : a ≠ cx.script.actor) {r s : Run σ} {offset : Nat}
    {i : Instruction} (h : Sent cx a r) (hat : At cx r offset i)
    (hstep : step cx offset i r = (.ok (), s)) : Sent cx a s := by
  have hlife : (ScriptId.life a).actor ≠ cx.script.actor := ha
  have hexecuted := executed_step hat.2.2 r
  intro t hsent
  cases hskip : cx.headless && i.opcode.skippedHeadless with
  | true =>
      have hstates : scriptAt (Run.step cx offset i r).2.states (.life a) =
          scriptAt r.states (.life a) := step_elsewhere_of_skipped hskip r hlife
      rw [hskip, hstep] at hexecuted
      rw [hstep] at hstates
      rw [hexecuted, if_pos rfl, List.append_nil] at hsent
      rw [hstates]
      exact h t hsent
  | false =>
      rw [hskip, hstep] at hexecuted
      rw [hexecuted, if_neg Bool.false_ne_true] at hsent
      obtain ⟨j, hj, hop, ht⟩ := hsent
      cases hredirects : i.redirects a with
      | true =>
          -- The step itself redirects the actor, so its target is the last one.
          rw [lastRedirect?_append_of_redirects hredirects] at hj
          cases hj
          have hnamed := (of_decide_eq_true hredirects).2
          obtain ⟨a', t', -, ha', ht', hreentry⟩ := step_of_setBehaviorOf hop hskip hstep
          rw [hnamed] at ha'
          rw [ht] at ht'
          cases ha'
          cases ht'
          exact hreentry ha
      | false =>
          rw [lastRedirect?_append_of_not hredirects] at hj
          obtain ⟨c, result, w, hacts, hentered, hafter⟩ := step_acts_elsewhere cx offset i r hlife
          rw [hstep] at hafter
          rw [hafter, hacts.reentry_of_not_redirects ha hredirects, hentered]
          exact h t ⟨j, hj, hop, ht⟩

theorem Steps.sent {a : Nat} (ha : a ≠ cx.script.actor) {n : Nat} {r s : Run σ}
    (hsteps : Steps cx n r s) (hr : Sent cx a r) : Sent cx a s :=
  hsteps.invariant (fun hat hstep h => h.step ha hat hstep) hr

end Run

/-! ### The running script -/

/-- A game that leaves the states of its callers alone. -/
def Host.Keeps {σ : Type} (host : Host σ) : Prop :=
  ∀ call h, (host.execute call h).1.actor = call.actor

/-- Where a flow that ends a run at `offset` lets the script resume. -/
def Flow.resumesAt (flow : Flow) (offset : Nat) : Option Nat :=
  match flow with
  | .suspend => some offset
  | .yieldTo t => some t
  | .advance | .jump _ | .terminate => none

/-- What a script was to resume at does not outlive the flow that ends its run. -/
theorem Flow.reentry_apply {flow : Flow} {offset : Nat} {s : ScriptState} (hs : s.running = true)
    (h : (flow.apply offset s).running = false) :
    (flow.apply offset s).reentry = flow.resumesAt offset := by
  cases flow with
  | advance | jump =>
      rw [Flow.apply] at h
      exact absurd (hs.symm.trans h) (by decide)
  | suspend | yieldTo | terminate => rfl

/-- What the effects of an instruction leave alone in every script, the instruction does, if the game
leaves the states of its callers alone. -/
theorem Acts.keeps {σ β : Type} {host : Host σ} (hhost : host.Keeps) {site : Site}
    {i : Instruction} {states : Array ActorState} {c : CallState} {result : Except Fault Flow}
    {w : World σ} (hacts : Acts host site i states c result w) (g : ScriptState → β)
    (heffect : ∀ {flow script f}, Effect site i states flow script f → ∀ s, g (f s) = g s)
    (id : ScriptId) : g (scriptAt w.states id) = g (scriptAt states id) := by
  cases hacts with
  | @effect flow script f _ he hstates _ =>
      rw [hstates]
      rcases scriptAt_modifyScript_cases states script f id with heq | ⟨rfl, heq⟩
      · rw [heq]
      · rw [heq, heffect he]
  | fault _ hstates _ => rw [hstates]
  | hosted _ hcall hstates =>
      rw [hstates]
      rcases scriptAt_modify_cases states site.script.actor _ id with heq | ⟨hactor, heq⟩
      · rw [heq]
      · rw [heq, hhost, hcall, scriptAt, hactor]

/-- No instruction stops a script by changing its state, if the game does not. -/
theorem Acts.running {σ : Type} {host : Host σ} (hhost : host.Keeps) {site : Site}
    {i : Instruction} {states : Array ActorState} {c : CallState} {result : Except Fault Flow}
    {w : World σ} (hacts : Acts host site i states c result w) (id : ScriptId) :
    (scriptAt w.states id).running = (scriptAt states id).running :=
  hacts.keeps hhost ScriptState.running (fun he s => (he.keeps s).1) id

namespace Run

variable {σ : Type} {cx : RunContext σ}

/-- Steps end with a last one. -/
theorem Steps.last {n : Nat} {r s : Run σ} (h : Steps cx (n + 1) r s) :
    ∃ u offset i, Steps cx n r u ∧ At cx u offset i ∧ step cx offset i u = (.ok (), s) := by
  induction n generalizing r with
  | zero =>
      cases h with
      | more hat hstep hrest =>
          cases hrest with
          | refl => exact ⟨r, _, _, .refl r, hat, hstep⟩
  | succ n ih =>
      cases h with
      | more hat hstep hrest =>
          obtain ⟨u, offset, i, hsteps, hat', hstep'⟩ := ih hrest
          exact ⟨u, offset, i, .more hat hstep hsteps, hat', hstep'⟩

/-- The step that ends a run writes where the script resumes. -/
theorem reentry_of_last {r s : Run σ} {offset : Nat} {i : Instruction} (hat : At cx r offset i)
    (hstep : step cx offset i r = (.ok (), s)) (hhost : cx.host.Keeps)
    (hended : (scriptAt s.states cx.script).running = false) :
    ∃ flow, (perform cx offset i (arrived cx offset r)).1 = .ok flow ∧
      (scriptAt s.states cx.script).reentry = flow.resumesAt offset := by
  have hrunning : (scriptAt r.states cx.script).running = true := hat.1
  have hlt := actor_lt_of_running hrunning
  obtain ⟨c, w, hacts, hstates⟩ := perform_acts cx offset i (arrived cx offset r)
  have hentered : (scriptAt (entered cx r) cx.script).running = true := by
    rw [entered, scriptAt_modifyScript_self hlt]
    exact hrunning
  rcases hp : perform cx offset i (arrived cx offset r) with ⟨fault | flow, u⟩
  · rw [step_of_perform_error hp] at hstep
    cases hstep
  · rw [hp] at hstates
    rw [step_of_perform_ok hp] at hstep
    cases hstep
    have husize : cx.script.actor < u.states.size := by
      rw [hstates, hacts.size]
      change cx.script.actor < (entered cx r).size
      rwa [entered, size_modifyScript]
    have hu : (scriptAt u.states cx.script).running = true := by
      rw [hstates, hacts.running hhost]
      exact hentered
    have hs : scriptAt (u.modifyScript cx.script (flow.apply offset)).states cx.script =
        flow.apply offset (scriptAt u.states cx.script) := scriptAt_modifyScript_self husize _
    rw [hs] at hended ⊢
    exact ⟨flow, rfl, Flow.reentry_apply hu hended⟩

/-- A run goes on from what it has visited. -/
theorem visited_prefix_drive (cx : RunContext σ) (gas : Nat) (r : Run σ) :
    r.visited.toList <+: (drive cx gas r).2.visited.toList := by
  have hstep : ∀ {u v : Run σ} {offset : Nat} {i : Instruction},
      r.visited.toList <+: u.visited.toList → (step cx offset i u).2 = v →
      r.visited.toList <+: v.visited.toList := by
    rintro u v offset i hu rfl
    rw [visited_step, Array.toList_push]
    exact hu.trans (List.prefix_append _ _)
  obtain ⟨n, s, -, hsteps, hstops⟩ := drive_stops cx gas r
  have hs : r.visited.toList <+: s.visited.toList :=
    hsteps.invariant (P := fun u => r.visited.toList <+: u.visited.toList)
      (fun _ hs hu => hstep hu (congrArg Prod.snd hs)) (List.prefix_refl _)
  generalize drive cx gas r = o at hstops
  cases hstops with
  | ended | overrun | exhausted => exact hs
  | fault _ hfault => exact hstep hs (congrArg Prod.snd hfault)

theorem Steps.visited_size {n : Nat} {r s : Run σ} (h : Steps cx n r s) :
    s.visited.size = r.visited.size + n := by
  induction h with
  | refl r => rfl
  | @more n offset i r s t _ hstep _ ih =>
      have hs := visited_step cx offset i r
      rw [hstep] at hs
      rw [ih, hs, Array.size_push]
      omega

end Run

/-! ### Scenes -/

namespace Scene

variable {σ τ : Type}

/-- The last instruction that the run of a script executes is the one at `offset`, which goes on
with `flow`. -/
def EndsWith (s : Scene) (host : Host σ) (h : σ) (id : ScriptId) (time : FrameTime) (offset : Nat)
    (flow : Flow) : Prop :=
  ∃ program start n r i, s.program? id = some program ∧
    (scriptAt s.states id).reentry = some start ∧
    Run.Steps (s.context host id program time) n (s.started h id start) r ∧
    Run.At (s.context host id program time) r offset i ∧
    (Run.perform (s.context host id program time) offset i
      (Run.arrived (s.context host id program time) offset r)).1 = .ok flow ∧
    (s.runScript host h id time).visited.length = n + 1

theorem config_runScript (s : Scene) (host : Host σ) (h : σ) (id : ScriptId) (time : FrameTime) :
    (s.runScript host h id time).scene.config = s.config := by
  unfold runScript
  split
  · rfl
  · dsimp only
    split <;> rfl

/-- A script starts where it is to resume, if it may execute anything. -/
theorem visited_head?_of_reentry {s : Scene} {id : ScriptId} {program : Program} {start : Nat}
    (hp : s.program? id = some program) (hr : (scriptAt s.states id).reentry = some start)
    (hactor : id.actor < s.states.size) (hlt : start < program.instructions.size)
    (hgas : 0 < s.config.gasLimit) (host : Host σ) (h : σ) (time : FrameTime) :
    (s.runScript host h id time).visited.head? = some start := by
  have hdrive : Run.drive (s.context host id program time) s.config.gasLimit
      (s.started h id start) = _ := rfl
  obtain ⟨-, hvisited, -, -⟩ := runScript_of_drive hp hr hdrive
  have hscript : (s.started h id start).script id =
      { scriptAt s.states id with offset := start, running := true } :=
    scriptAt_modifyScript_self hactor _
  have hat : Run.At (s.context host id program time) (s.started h id start) start
      program.instructions[start] := by
    refine ⟨?_, ?_, Array.getElem?_eq_getElem hlt⟩
    · exact congrArg ScriptState.running hscript
    · exact congrArg ScriptState.offset hscript
  obtain ⟨gas, hsucc⟩ : ∃ gas, s.config.gasLimit = gas + 1 := Nat.exists_eq_add_one.mpr hgas
  have hfirst := Run.visited_step (s.context host id program time) start
    program.instructions[start] (s.started h id start)
  rw [hvisited, hsucc, Run.drive_succ_of_at hat]
  rcases hs : Run.step (s.context host id program time) start program.instructions[start]
    (s.started h id start) with ⟨fault | u, r⟩
  · rw [hs] at hfirst
    dsimp only at hfirst ⊢
    rw [hfirst]
    rfl
  · rw [hs] at hfirst
    obtain ⟨rest, hrest⟩ := Run.visited_prefix_drive (s.context host id program time) gas r
    dsimp only at hfirst ⊢
    rw [← hrest, hfirst]
    rfl

theorem length_visited {s : Scene} {host : Host σ} {h : σ} {id : ScriptId} {time : FrameTime}
    {steps : Nat} (hok : (s.runScript host h id time).result = .ok steps) :
    (s.runScript host h id time).visited.length = steps := by
  unfold runScript at hok ⊢
  split at hok
  · cases hok
  · dsimp only at hok ⊢
    split at hok
    · cases hok
      rfl
    · cases hok

theorem executed_nil (s : Scene) (id : ScriptId) : s.executed id [] = [] := by
  unfold executed
  split <;> rfl

/-- A run without a fault that sent a script anywhere executed something. -/
theorem steps_pos_of_sentLast {s : Scene} {host : Host σ} {h : σ} {id : ScriptId}
    {time : FrameTime} {steps a t : Nat} (hok : (s.runScript host h id time).result = .ok steps)
    (hsent : SentLast (s.executed id (s.runScript host h id time).visited) a t) : 0 < steps := by
  rcases Nat.eq_zero_or_pos steps with rfl | hpos
  · rw [List.eq_nil_of_length_eq_zero (length_visited hok), executed_nil] at hsent
    exact absurd hsent (not_sentLast_nil a t)
  · exact hpos

/-- A run without a fault that executed anything is that many steps, after which the script does not
run any more. -/
theorem steps_of_ok {s : Scene} {host : Host σ} {h : σ} {id : ScriptId} {time : FrameTime}
    {steps : Nat} (hok : (s.runScript host h id time).result = .ok steps) (hpos : 0 < steps) :
    ∃ program start r, s.program? id = some program ∧
      (scriptAt s.states id).reentry = some start ∧
      Run.Steps (s.context host id program time) steps (s.started h id start) r ∧
      (scriptAt r.states id).running = false ∧
      (s.runScript host h id time).visited = r.visited.toList ∧
      (s.runScript host h id time).scene.states = r.states := by
  have hlength := length_visited hok
  cases hp : s.program? id with
  | none =>
      unfold runScript at hok
      rw [hp] at hok
      cases hok
  | some program =>
      cases hr : (scriptAt s.states id).reentry with
      | none =>
          rw [(runScript_of_terminated hp hr host h time).1] at hok
          cases hok
          exact absurd hpos (Nat.lt_irrefl 0)
      | some start =>
          obtain ⟨n, r, result, last, hsteps, hstops, hresult, hvisited, hstates⟩ :=
            runScript_stops hp hr host h time
          rw [hok] at hresult
          cases result with
          | error f => cases hresult
          | ok u =>
              cases hstops with
              | ended hended =>
                  have hsize : r.visited.size = n := by
                    rw [hsteps.visited_size]
                    exact Nat.zero_add n
                  obtain rfl : n = steps := by
                    rw [← hlength, hvisited, Array.length_toList, hsize]
                  exact ⟨program, start, r, rfl, rfl, hsteps, hended, hvisited, hstates⟩

/-- A run without a fault that executed anything ends with an instruction, after which the script
resumes as the flow of that instruction says. -/
theorem endsWith_of_ok {s : Scene} {host : Host σ} (hhost : host.Keeps) {h : σ} {id : ScriptId}
    {time : FrameTime} {steps : Nat} (hok : (s.runScript host h id time).result = .ok steps)
    (hpos : 0 < steps) :
    ∃ offset flow, s.EndsWith host h id time offset flow ∧
      (scriptAt (s.runScript host h id time).scene.states id).reentry = flow.resumesAt offset := by
  have hlength := length_visited hok
  obtain ⟨program, start, r, hp, hr, hsteps, hended, -, hstates⟩ := steps_of_ok hok hpos
  obtain ⟨m, rfl⟩ : ∃ m, steps = m + 1 := Nat.exists_eq_add_one.mpr hpos
  obtain ⟨v, offset, i, hbefore, hat, hstep⟩ := hsteps.last
  obtain ⟨flow, hflow, hreentry⟩ := Run.reentry_of_last hat hstep hhost hended
  refine ⟨offset, flow, ⟨program, start, m, v, i, hp, hr, hbefore, hat, hflow, hlength⟩, ?_⟩
  rw [hstates]
  exact hreentry

/-- After a run without a fault the life script of another actor resumes where it was sent. -/
theorem reentry_of_sent_elsewhere {s : Scene} {host : Host σ} {h : σ} {id : ScriptId}
    {time : FrameTime} {steps a t : Nat} (hok : (s.runScript host h id time).result = .ok steps)
    (ha : a ≠ id.actor) (hsent : SentLast (s.executed id (s.runScript host h id time).visited) a t) :
    (scriptAt (s.runScript host h id time).scene.states (.life a)).reentry = some t := by
  obtain ⟨program, start, r, hp, -, hsteps, -, hvisited, hstates⟩ :=
    steps_of_ok hok (steps_pos_of_sentLast hok hsent)
  have hstart : Run.Sent (s.context host id program time) a (s.started h id start) :=
    fun t h => absurd h (not_sentLast_nil a t)
  rw [executed_of_program hp, hvisited] at hsent
  rw [hstates]
  exact hsteps.sent ha hstart t hsent

/-- Where an instruction of a compiled scene sends a life script, the script has an instruction. -/
theorem Plays.sent_lt {s : Scene} {source : SceneSource} (hs : s.Plays source) {id : ScriptId}
    {visited : List Nat} {a t : Nat} (hsent : SentLast (s.executed id visited) a t) :
    ∃ p, s.program? (.life a) = some p ∧ t < p.instructions.size := by
  obtain ⟨i, hi, hop, ht⟩ := hsent
  obtain ⟨hmem, hredirects⟩ := mem_of_lastRedirect? hi
  have hactor : i.operands[0]? = some (.actor a) := (of_decide_eq_true hredirects).2
  cases hp : s.program? id with
  | none =>
      rw [executed, hp] at hmem
      cases hmem
  | some program =>
      rw [executed_of_program hp, Program.executed, List.mem_filter, List.mem_filterMap] at hmem
      obtain ⟨⟨k, -, hk⟩, -⟩ := hmem
      have hdest : i.destination? id = some (.life a) := by
        rw [Instruction.destination?, hop, hactor]
        rfl
      rcases (hs.sound hp hk).target 1 (by rw [hop]; rfl) with ⟨n, hn⟩ | ⟨t', dest, size, ht', hd, hsize, hlt⟩
      · rw [ht] at hn
        cases hn
      · rw [ht] at ht'
        rw [hdest] at hd
        cases ht'
        cases hd
        obtain ⟨parsed, hparsed, rfl⟩ := Option.map_eq_some_iff.mp hsize
        refine ⟨_, (hs.program? _).trans (by rw [hparsed]; rfl), ?_⟩
        rwa [SceneSource.size_instructions]

/-- **Whose life script keeps the behavior it was sent to.** In a run without a fault of a life
script of a compiled scene, let the last instruction that redirects the life script of an actor send
it to `t`. The script resumes at `t` if it is another actor's, and its next run starts there. The
running script itself resumes where the flow of its last instruction says: sending it to `t` has no
effect. -/
theorem reentry_of_sentLast {s : Scene} {source : SceneSource} (hs : s.Plays source)
    {host : Host σ} (hhost : host.Keeps) (h : σ) (x : Nat) (time : FrameTime) {steps a t : Nat}
    (hok : (s.runScript host h (.life x) time).result = .ok steps)
    (hsent : SentLast (s.executed (.life x) (s.runScript host h (.life x) time).visited) a t) :
    let o := s.runScript host h (.life x) time
    (∃ offset flow, s.EndsWith host h (.life x) time offset flow ∧
      ((scriptAt o.scene.states (.life a)).reentry = some t ↔
        a ≠ x ∨ flow.resumesAt offset = some t)) ∧
      (a ≠ x → 0 < s.config.gasLimit → ∀ (game : Host τ) (g : τ) (later : FrameTime),
        (o.scene.runScript game g (.life a) later).visited.head? = some t) := by
  obtain ⟨offset, flow, hends, hreentry⟩ :=
    endsWith_of_ok hhost hok (steps_pos_of_sentLast hok hsent)
  refine ⟨⟨offset, flow, hends, ?_⟩, ?_⟩
  · by_cases hax : a = x
    · subst hax
      rw [hreentry]
      simp
    · have helsewhere := reentry_of_sent_elsewhere hok hax hsent
      simp [hax, helsewhere]
  · intro hax hgas game g later
    have hplays := hs.runScript host h (.life x) time
    obtain ⟨p, hp, hlt⟩ := hs.sent_lt hsent
    have hp' : (s.runScript host h (.life x) time).scene.program? (.life a) = some p := by
      rw [program?_runScript, hp]
    exact visited_head?_of_reentry hp' (reentry_of_sent_elsewhere hok hax hsent)
      (hplays.actor_lt hp') hlt (by rwa [config_runScript]) game g later

/-- An actor that sends another to its second behavior: that is where the other resumes. -/
theorem reentry_of_sentLast_other :
    let source : SceneSource :=
      { actors := [{ life := [0x22, 1, 2, 0, 0x23] }, { life := [0x01, 0x23, 0x01, 0x23] }] }
    let s := ofCompiled (compileScene .standard source) {}
    let o := s.runScript Host.quiet () (.life 0) {}
    o.result = .ok 3 ∧ SentLast (s.executed (.life 0) o.visited) 1 3 ∧
      (scriptAt o.scene.states (.life 1)).reentry = some 3 ∧
      (o.scene.runScript Host.quiet () (.life 1) {}).visited.head? = some 3 := by
  intro source s o
  have hok : o.result = .ok 3 := by decide +kernel
  have hsent : SentLast (s.executed (.life 0) o.visited) 1 3 := by decide +kernel
  have hkeeps : Host.quiet.Keeps := fun _ _ => rfl
  obtain ⟨⟨offset, flow, -, hreentry⟩, hnext⟩ :=
    reentry_of_sentLast (τ := Unit) (plays_ofCompiled source {}) hkeeps () 0 {} hok hsent
  exact ⟨hok, hsent, hreentry.mpr (.inl (by decide)),
    hnext (by decide) (by decide) Host.quiet () {}⟩

/-- An actor that sends itself to its second behavior: it resumes at the first, which its run ended
with. -/
theorem reentry_of_sentLast_self :
    let source : SceneSource := { actors := [{ life := [0x22, 0, 5, 0, 0x23, 0x01, 0x23] }] }
    let s := ofCompiled (compileScene .standard source) {}
    let o := s.runScript Host.quiet () (.life 0) {}
    o.result = .ok 3 ∧ SentLast (s.executed (.life 0) o.visited) 0 3 ∧
      (scriptAt o.scene.states (.life 0)).reentry = some 0 ∧
      (o.scene.runScript Host.quiet () (.life 0) {}).visited.head? = some 0 := by
  decide +kernel

end Scene

end SceneScript
