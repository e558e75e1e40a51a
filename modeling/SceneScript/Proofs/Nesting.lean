import SceneScript.Proofs.Budget
import SceneScript.Proofs.Dispatch

/-! # Switches inside switches

A script keeps the value of one switch at a time. SWITCH replaces it, END_SWITCH clears it, and no
other instruction touches it. So a switch inside another one does not give the value of the outer one
back when it ends: from then on labels of the outer one have nothing to compare.

* `Run.follow`, `Scene.follow`: the instructions that a run executes one after the other.
* `Shut`: every SWITCH among them has been ended, as after complete switches (`shut_concat`).
* `Run.switchValue_follow`: what is left of the value, by induction on the instructions.
* `Scene.label_after_switches`: what becomes of a label that is reached then. -/

namespace SceneScript

/-! ### Instructions in turn -/

namespace Run

variable {σ : Type} {cx : RunContext σ}

/-- Execute a number of instructions of the running script; there are none if it stops or faults
before. -/
def follow (cx : RunContext σ) : Nat → Run σ → Option (List Instruction × Run σ)
  | 0, r => some ([], r)
  | n + 1, r =>
    if (r.script cx.script).running then
      match cx.program.instructions[(r.script cx.script).offset]? with
      | none => none
      | some i =>
        match step cx (r.script cx.script).offset i r with
        | (.error _, _) => none
        | (.ok (), s) => (follow cx n s).map fun (is, q) => (i :: is, q)
    else none

/-- What is executed first, and the rest. -/
theorem follow_succ {n : Nat} {r q : Run σ} {all : List Instruction}
    (h : follow cx (n + 1) r = some (all, q)) :
    ∃ offset i s is, At cx r offset i ∧ step cx offset i r = (.ok (), s) ∧
      follow cx n s = some (is, q) ∧ all = i :: is := by
  rw [follow] at h
  split at h
  · next hrun =>
      split at h
      · cases h
      · next i hi =>
          split at h
          · cases h
          · next s hstep =>
              obtain ⟨⟨is, q'⟩, hrest, heq⟩ := Option.map_eq_some_iff.mp h
              cases heq
              exact ⟨_, i, s, is, ⟨hrun, rfl, hi⟩, hstep, hrest, rfl⟩
  · cases h

theorem steps_of_follow {n : Nat} {r q : Run σ} {is : List Instruction}
    (h : follow cx n r = some (is, q)) : Steps cx n r q ∧ is.length = n := by
  induction n generalizing r is with
  | zero =>
      cases h
      exact ⟨.refl _, rfl⟩
  | succ n ih =>
      obtain ⟨offset, i, s, rest, hat, hstep, hrest, rfl⟩ := follow_succ h
      obtain ⟨hsteps, hlength⟩ := ih hrest
      exact ⟨.more hat hstep hsteps, by rw [List.length_cons, hlength]⟩

/-- Instructions followed so far, and more of them. -/
theorem follow_add {n m : Nat} {r s : Run σ} {before : List Instruction}
    (h : follow cx n r = some (before, s)) :
    follow cx (n + m) r = (follow cx m s).map fun (is, q) => (before ++ is, q) := by
  induction n generalizing r before with
  | zero =>
      cases h
      rw [Nat.zero_add]
      cases follow cx m s <;> rfl
  | succ n ih =>
      obtain ⟨offset, i, t, rest, hat, hstep, hrest, rfl⟩ := follow_succ h
      obtain ⟨hrun, rfl, hi⟩ := hat
      rw [Nat.add_right_comm, follow, if_pos hrun, hi]
      simp only [hstep, ih hrest, Option.map_map]
      rfl

theorem follow_one {r s : Run σ} {offset : Nat} {i : Instruction} (hat : At cx r offset i)
    (hstep : step cx offset i r = (.ok (), s)) : follow cx 1 r = some ([i], s) := by
  obtain ⟨hrun, rfl, hi⟩ := hat
  rw [follow, if_pos hrun, hi]
  simp only [hstep]
  rfl

end Run

/-! ### The value of a switch -/

/-- The instruction opens a switch or ends one. -/
def Operation.switches : Operation → Bool
  | .switch | .endSwitch => true
  | _ => false

/-- Every SWITCH is followed by an END_SWITCH. -/
def Shut : List Operation → Prop
  | [] => True
  | o :: rest => (o = .switch → .endSwitch ∈ rest) ∧ Shut rest

/-- Whatever is left through the end of a switch is shut, complete switches above all. -/
theorem shut_concat (os : List Operation) : Shut (os ++ [.endSwitch]) := by
  induction os with
  | nil => exact ⟨fun h => absurd h (by decide), trivial⟩
  | cons o os ih => exact ⟨fun _ => by simp, ih⟩

theorem Flow.switchValue_apply (flow : Flow) (offset : Nat) (s : ScriptState) :
    (flow.apply offset s).switchValue = s.switchValue := by
  cases flow <;> rfl

theorem Effect.switchValue {site : Site} {i : Instruction} {states : Array ActorState} {flow : Flow}
    {script : ScriptId} {f : ScriptState → ScriptState} (he : Effect site i states flow script f)
    (hop : i.operation.switches = false) (s : ScriptState) :
    (f s).switchValue = s.switchValue := by
  cases he with
  | openSwitch _ h | closeSwitch h => simp [h, Operation.switches] at hop
  | resumeTrack | resumeTrackOf => cases h : s.savedOffset <;> simp [Step.restoreTrack, h]
  | _ => rfl

/-- No other instruction touches the value of a switch, if the game does not. -/
theorem Acts.switchValue {σ : Type} {host : Host σ} (hhost : host.Keeps) {site : Site}
    {i : Instruction} {states : Array ActorState} {c : CallState} {result : Except Fault Flow}
    {w : World σ} (hacts : Acts host site i states c result w)
    (hop : i.operation.switches = false) (id : ScriptId) :
    (scriptAt w.states id).switchValue = (scriptAt states id).switchValue :=
  hacts.keeps hhost ScriptState.switchValue (fun he => he.switchValue hop) id

namespace Run

variable {σ : Type} {cx : RunContext σ} {r s : Run σ} {offset : Nat} {i : Instruction}

theorem switchValue_modifyScript (states : Array ActorState) (script : ScriptId)
    {f : ScriptState → ScriptState} (hf : ∀ s, (f s).switchValue = s.switchValue) (id : ScriptId) :
    (scriptAt (SceneScript.modifyScript states script f) id).switchValue =
      (scriptAt states id).switchValue := by
  rcases scriptAt_modifyScript_cases states script f id with heq | ⟨rfl, heq⟩
  · rw [heq]
  · rw [heq, hf]

theorem switchValue_entered (cx : RunContext σ) (r : Run σ) (id : ScriptId) :
    (scriptAt (entered cx r) id).switchValue = (scriptAt r.states id).switchValue := by
  unfold entered
  apply switchValue_modifyScript
  intro s
  rfl

theorem switchValue_step (hhost : cx.host.Keeps) (hop : i.operation.switches = false)
    (hstep : step cx offset i r = (.ok (), s)) (id : ScriptId) :
    (scriptAt s.states id).switchValue = (scriptAt r.states id).switchValue := by
  obtain ⟨c, result, w, hacts, hresult, hstates⟩ := step_acts cx offset i r
  rw [hstep] at hresult hstates
  change s.states = _ at hstates
  rw [hstates, ← switchValue_entered cx r, ← hacts.switchValue hhost hop id]
  cases result with
  | error f => rfl
  | ok flow => exact switchValue_modifyScript w.states cx.script (flow.switchValue_apply offset) id

/-- The end of a switch clears its value. -/
theorem switchValue_endSwitch (hat : At cx r offset i) (hop : i.operation = .endSwitch)
    (hskip : (cx.headless && i.opcode.skippedHeadless) = false)
    (hstep : step cx offset i r = (.ok (), s)) :
    (scriptAt s.states cx.script).switchValue = none := by
  have hx := Stage.execute_endSwitch hop cx.host ⟨cx.script, offset, cx.time⟩
    ⟨entered cx r, r.memory.callState offset, r.host⟩
  have hperform : perform cx offset i (arrived cx offset r) = _ := perform_of_execute hskip hx
  rw [step_of_perform_ok hperform] at hstep
  cases hstep
  have hlt : cx.script.actor < (entered cx r).size := by
    rw [entered, size_modifyScript]
    exact actor_lt_of_running hat.1
  change (scriptAt (SceneScript.modifyScript (SceneScript.modifyScript (entered cx r) cx.script _)
    cx.script _) cx.script).switchValue = none
  rw [switchValue_modifyScript _ _ (Flow.switchValue_apply _ _), scriptAt_modifyScript_self hlt]

/-- **What is left of a value** after instructions that end every switch they open: all of it, or
nothing once a switch has ended. -/
theorem switchValue_follow (hhost : cx.host.Keeps)
    (hengine : ∀ {k : Nat} {i : Instruction}, cx.program.instructions[k]? = some i →
      i.operation.isHosted = false → (cx.headless && i.opcode.skippedHeadless) = false)
    {n : Nat} {r q : Run σ} {is : List Instruction} (h : follow cx n r = some (is, q))
    (hshut : Shut (is.map Instruction.operation)) :
    (scriptAt q.states cx.script).switchValue =
      if .endSwitch ∈ is.map Instruction.operation then none
      else (scriptAt r.states cx.script).switchValue := by
  induction n generalizing r is with
  | zero =>
      cases h
      rfl
  | succ n ih =>
      obtain ⟨offset, i, s, rest, hat, hstep, hrest, rfl⟩ := follow_succ h
      have hlast := ih hrest hshut.2
      rw [List.map_cons]
      by_cases hlater : .endSwitch ∈ rest.map Instruction.operation
      · rw [if_pos hlater] at hlast
        rw [hlast, if_pos (List.mem_cons_of_mem _ hlater)]
      · rw [if_neg hlater] at hlast
        rw [hlast]
        by_cases hend : i.operation = .endSwitch
        · have hskip := hengine hat.2.2 (by rw [hend]; rfl)
          rw [switchValue_endSwitch hat hend hskip hstep, if_pos (by simp [hend])]
        · have hopen : i.operation ≠ .switch := fun hswitch => hlater (hshut.1 hswitch)
          have hplain : i.operation.switches = false := by
            cases hop : i.operation <;> first | rfl | contradiction
          have hnone : .endSwitch ∉ i.operation :: rest.map Instruction.operation := by
            rw [List.mem_cons, not_or]
            exact ⟨fun he => hend he.symm, hlater⟩
          rw [switchValue_step hhost hplain hstep, if_neg hnone]

end Run

/-! ### Labels -/

/-- The instruction is a label of a switch. -/
def Operation.labels (o : Operation) : Prop := o = .caseArm ∨ o = .orCaseArm

/-- What a label does, when its target is known: it compares the value that is kept. -/
theorem run_execute_caseLabel {σ : Type} (host : Host σ) (site : Site) {i : Instruction}
    {dest : Nat} {test : BoundTest} (hop : i.operation.labels) (htarget : i.targetAt 0 = .ok dest)
    (htest : i.comparison = .ok test) (w : World σ) :
    (Step.execute host site i).run w =
      match (scriptAt w.states site.script).switchValue with
      | none => (.error (.broken i.label .noSwitchValue), w)
      | some v => (.ok (Step.branch (test.passes v == (i.operation == .orCaseArm)) dest), w) := by
  have hlabel : ∀ jumpOn, (Step.caseLabel site i jumpOn).run w =
      match (scriptAt w.states site.script).switchValue with
      | none => (.error (.broken i.label .noSwitchValue), w)
      | some v => (.ok (Step.branch (test.passes v == jumpOn) dest), w) := by
    intro jumpOn
    have hdest : (Step.demand i (i.targetAt 0)).run w = (.ok dest, w) := by
      rw [htarget]
      rfl
    have hown : (Step.own site).run w = (.ok (scriptAt w.states site.script), w) := rfl
    unfold Step.caseLabel
    rw [Exec.run_bind hdest, Exec.run_bind hown]
    cases (scriptAt w.states site.script).switchValue with
    | none => rfl
    | some v =>
        rw [htest]
        rfl
  unfold Step.execute
  rcases hop with hop | hop
  · rw [hop]
    exact hlabel false
  · rw [hop]
    exact hlabel true

namespace Run

variable {σ : Type} {cx : RunContext σ} {q : Run σ} {k dest : Nat} {i : Instruction}
  {test : BoundTest}

theorem step_label (hat : At cx q k i) (hop : i.operation.labels) (htarget : i.targetAt 0 = .ok dest)
    (htest : i.comparison = .ok test)
    (hskip : (cx.headless && i.opcode.skippedHeadless) = false) :
    match (scriptAt q.states cx.script).switchValue with
    | none => ∃ t, step cx k i q = (.error (.broken i.label .noSwitchValue), t)
    | some v => ∃ t, step cx k i q = (.ok (), t) ∧ (scriptAt t.states cx.script).offset =
        if test.passes v == (i.operation == .orCaseArm) then dest else k + 1 := by
  have hx := run_execute_caseLabel cx.host ⟨cx.script, k, cx.time⟩ hop htarget htest
    ⟨entered cx q, q.memory.callState k, q.host⟩
  dsimp only at hx
  rw [switchValue_entered] at hx
  cases hv : (scriptAt q.states cx.script).switchValue with
  | none =>
      rw [hv] at hx
      have hperform : perform cx k i (arrived cx k q) = _ := perform_of_execute hskip hx
      exact ⟨_, step_of_perform_error hperform⟩
  | some v =>
      rw [hv] at hx
      have hperform : perform cx k i (arrived cx k q) = _ := perform_of_execute hskip hx
      refine ⟨_, step_of_perform_ok hperform, ?_⟩
      have hentered : cx.script.actor < (entered cx q).size := by
        rw [entered, size_modifyScript]
        exact actor_lt_of_running hat.1
      change (scriptAt (SceneScript.modifyScript (entered cx q) cx.script _) cx.script).offset = _
      rw [scriptAt_modifyScript_self hentered]
      unfold Step.branch
      split <;> rfl

end Run

/-! ### Scenes -/

namespace Scene

variable {σ : Type}

/-- The first instructions that the run of a script executes, and what it has come to then. -/
def follow (s : Scene) (host : Host σ) (h : σ) (id : ScriptId) (time : FrameTime) (n : Nat) :
    Option (List Instruction × Run σ) :=
  match s.program? id, (scriptAt s.states id).reentry with
  | some program, some start =>
    Run.follow (s.context host id program time) n (s.started h id start)
  | _, _ => none

theorem follow_eq {s : Scene} {id : ScriptId} {program : Program} {start : Nat}
    (hp : s.program? id = some program) (hstart : (scriptAt s.states id).reentry = some start)
    (host : Host σ) (h : σ) (time : FrameTime) (n : Nat) :
    s.follow host h id time n =
      Run.follow (s.context host id program time) n (s.started h id start) := by
  rw [follow, hp, hstart]

theorem follow_eq_some {s : Scene} {host : Host σ} {h : σ} {id : ScriptId} {time : FrameTime}
    {n : Nat} {is : List Instruction} {r : Run σ}
    (hr : s.follow host h id time n = some (is, r)) :
    ∃ program start, s.program? id = some program ∧ (scriptAt s.states id).reentry = some start ∧
      Run.follow (s.context host id program time) n (s.started h id start) = some (is, r) := by
  unfold follow at hr
  split at hr
  · next program start hp hstart => exact ⟨program, start, hp, hstart, hr⟩
  · cases hr

/-- A run that faults where it has come to ends with the fault. -/
theorem runScript_of_fault {s : Scene} {host : Host σ} {h : σ} {id : ScriptId} {time : FrameTime}
    {program : Program} {start n k : Nat} {i : Instruction} {q t : Run σ} {fault : Fault}
    (hp : s.program? id = some program) (hstart : (scriptAt s.states id).reentry = some start)
    (hsteps : Run.Steps (s.context host id program time) n (s.started h id start) q)
    (hat : Run.At (s.context host id program time) q k i)
    (hstep : Run.step (s.context host id program time) k i q = (.error fault, t))
    (hgas : n < s.config.gasLimit) : (s.runScript host h id time).result = .error fault := by
  obtain ⟨rest, hrest⟩ : ∃ rest, s.config.gasLimit = rest + 1 + n :=
    ⟨s.config.gasLimit - n - 1, by omega⟩
  rw [runScript_of_reentry hp hstart, hrest, hsteps.drive, Run.drive_succ_of_at hat, hstep]
  exact outcome_result_eq_error_iff.mpr rfl

/-- A label of a compiled scene compares the value that is kept, if there is one. -/
theorem Plays.step_label {s : Scene} {source : SceneSource} (hs : s.Plays source) {id : ScriptId}
    {program : Program} (hp : s.program? id = some program) {host : Host σ} {time : FrameTime}
    {q : Run σ} {k dest : Nat} {label : Instruction}
    (hat : Run.At (s.context host id program time) q k label) (hop : label.operation.labels)
    (htarget : label.targetAt 0 = .ok dest) :
    ∃ test, label.comparison = .ok test ∧
      match (scriptAt q.states id).switchValue with
      | none => ∃ t, Run.step (s.context host id program time) k label q =
          (.error (.broken label.label .noSwitchValue), t)
      | some v => ∃ t, Run.step (s.context host id program time) k label q = (.ok (), t) ∧
          (scriptAt t.states id).offset =
            if test.passes v == (label.operation == .orCaseArm) then dest else k + 1 := by
  have hlabels : label.operation.compares = true ∧ label.operation.isHosted = false := by
    rcases hop with hop | hop <;> rw [hop] <;> exact ⟨rfl, rfl⟩
  obtain ⟨test, htest⟩ := Option.isSome_iff_exists.mp ((hs.sound hp hat.2.2).test hlabels.1)
  have hcomparison : label.comparison = .ok test := by rw [Instruction.comparison, htest]
  exact ⟨test, hcomparison,
    Run.step_label hat hop htarget hcomparison (hs.not_skipped hp hat.2.2 hlabels.2 _)⟩

/-- **Labels after inner switches.** A run has executed `n` instructions and keeps the value `v` of a
switch. It goes on for `m` instructions that end every switch they open: complete switches and
others. If a switch has ended among them, nothing is kept any more, and the run is broken at the next
label. Else the value is still kept, and a label compares it. -/
theorem label_after_switches {s : Scene} {source : SceneSource} (hs : s.Plays source)
    {host : Host σ} (hhost : host.Keeps) {h : σ} {id : ScriptId} {time : FrameTime} {n m : Nat}
    {before all : List Instruction} {r q : Run σ}
    (hr : s.follow host h id time n = some (before, r)) {v : Int}
    (hv : (scriptAt r.states id).switchValue = some v)
    (hq : s.follow host h id time (n + m) = some (all, q))
    (hshut : Shut ((all.drop n).map Instruction.operation)) :
    let ended := .endSwitch ∈ (all.drop n).map Instruction.operation
    (scriptAt q.states id).switchValue = (if ended then none else some v) ∧
      ∀ {program : Program} {k dest : Nat} {label : Instruction},
        s.program? id = some program → Run.At (s.context host id program time) q k label →
        label.operation.labels → label.targetAt 0 = .ok dest → n + m < s.config.gasLimit →
        if ended then
          (s.runScript host h id time).result = .error (.broken label.label .noSwitchValue)
        else ∃ test t, label.comparison = .ok test ∧
          s.follow host h id time (n + m + 1) = some (all ++ [label], t) ∧
          (scriptAt t.states id).offset =
            if test.passes v == (label.operation == .orCaseArm) then dest else k + 1 := by
  intro ended
  obtain ⟨program, start, hp, hstart, hfirst⟩ := follow_eq_some hr
  rw [follow_eq hp hstart] at hq
  have hinner : Run.follow (s.context host id program time) m r = some (all.drop n, q) := by
    obtain ⟨-, hlength⟩ := Run.steps_of_follow hfirst
    rw [Run.follow_add hfirst, Option.map_eq_some_iff] at hq
    obtain ⟨⟨is, q'⟩, hfollow, heq⟩ := hq
    obtain ⟨rfl, rfl⟩ := Prod.mk.inj heq
    rw [hfollow, ← hlength, List.drop_left]
  have hvalue : (scriptAt q.states id).switchValue = if ended then none else some v := by
    rw [← hv]
    exact Run.switchValue_follow hhost (fun hi hop => hs.not_skipped hp hi hop _) hinner hshut
  refine ⟨hvalue, ?_⟩
  intro program' k dest label hp' hat hop htarget hgas
  obtain rfl : program' = program := Option.some.inj (hp'.symm.trans hp)
  obtain ⟨test, htest, hstep⟩ := hs.step_label hp hat hop htarget
  obtain ⟨hsteps, -⟩ := Run.steps_of_follow hq
  rw [hvalue] at hstep
  by_cases hended : ended
  · rw [if_pos hended] at hstep ⊢
    obtain ⟨t, hstep⟩ := hstep
    exact runScript_of_fault hp hstart hsteps hat hstep hgas
  · rw [if_neg hended] at hstep ⊢
    obtain ⟨t, hstep, hoffset⟩ := hstep
    refine ⟨test, t, htest, ?_, hoffset⟩
    rw [follow_eq hp hstart, Run.follow_add hq, Run.follow_one hat hstep]
    rfl

/-- A switch around two nested ones: when these have ended, the label behind them breaks the run. -/
theorem label_after_switches_twice :
    let source : SceneSource :=
      { actors := [{ life := [0x71, 3, 0x73, 13, 0, 0, 1, 0x71, 5, 0x71, 3, 0x76, 0x76,
        0x73, 18, 0, 0, 2, 0x76, 0] }] }
    let s := ofCompiled (compileScene .standard source) {}
    let game : Host Unit :=
      ⟨fun call _ => (⟨.ok .advance, call.actor, call.callState⟩, ()), fun _ _ => (.ok 1, ())⟩
    ∃ all q, s.follow game () (.life 0) {} 7 = some (all, q) ∧
      (all.drop 3).map Instruction.operation = [.switch, .switch, .endSwitch, .endSwitch] ∧
      (scriptAt q.states (.life 0)).switchValue = none ∧
      (s.runScript game () (.life 0) {}).result = .error (.broken "7 CASE" .noSwitchValue) := by
  intro source s game
  have hkeeps : game.Keeps := fun _ _ => rfl
  have hfirst : (s.follow game () (.life 0) {} 3).map
      (fun p => (scriptAt p.2.states (.life 0)).switchValue) = some (some 1) := by decide +kernel
  have hrest : (s.follow game () (.life 0) {} (3 + 4)).map
      (fun p => ((p.1.drop 3).map Instruction.operation, p.2.script (.life 0))) =
        some ([.switch, .switch, .endSwitch, .endSwitch],
          { running := true, offset := 7, reentry := none, behaviorOffset := some 0 }) := by
    decide +kernel
  have hlabel : ((s.program? (.life 0)).bind fun p => p.instructions[7]?).map
      (fun i => (i.operation, i.targetAt 0, i.label)) = some (.caseArm, .ok 8, "7 CASE") := by
    decide +kernel
  obtain ⟨⟨before, r⟩, hr, hv⟩ := Option.map_eq_some_iff.mp hfirst
  obtain ⟨⟨all, q⟩, hq, hafter⟩ := Option.map_eq_some_iff.mp hrest
  obtain ⟨hops, hscript⟩ := Prod.mk.inj hafter
  obtain ⟨label, hl, hparts⟩ := Option.map_eq_some_iff.mp hlabel
  obtain ⟨program, hp, hi⟩ := Option.bind_eq_some_iff.mp hl
  simp only [Prod.mk.injEq] at hparts
  obtain ⟨hop, htarget, hname⟩ := hparts
  have hat : Run.At (s.context game (.life 0) program {}) q 7 label :=
    ⟨congrArg ScriptState.running hscript, congrArg ScriptState.offset hscript, hi⟩
  have hshut : Shut ((all.drop 3).map Instruction.operation) := by
    rw [hops]
    exact shut_concat [.switch, .switch, .endSwitch]
  obtain ⟨hvalue, hbroken⟩ :=
    label_after_switches (plays_ofCompiled source {}) hkeeps hr hv hq hshut
  have hresult := hbroken hp hat (.inl hop) htarget (by decide)
  rw [if_pos (by rw [hops]; decide)] at hvalue hresult
  exact ⟨all, q, hq, hops, hvalue, by rw [hresult, hname]⟩

/-- A complete switch inside another one: the value that was kept before is not kept after it, and
the label of the outer switch breaks the run. -/
theorem label_after_switches_nested :
    let source : SceneSource :=
      { actors := [{ life := [0x71, 3, 0x73, 15, 0, 0, 1, 0x71, 5, 0x73, 14, 0, 0, 1, 0x76,
        0x73, 20, 0, 0, 2, 0x76, 0] }] }
    let s := ofCompiled (compileScene .standard source) {}
    let game : Host Unit :=
      ⟨fun call _ => (⟨.ok .advance, call.actor, call.callState⟩, ()), fun _ _ => (.ok 1, ())⟩
    let kept (n : Nat) := (s.follow game () (.life 0) {} n).map fun p =>
      (scriptAt p.2.states (.life 0)).switchValue
    (compileScene .standard source).diagnostics.isEmpty = true ∧
      ((s.follow game () (.life 0) {} 6).map fun p => (p.1.drop 3).map Instruction.operation) =
        some [.switch, .caseArm, .endSwitch] ∧
      kept 3 = some (some 1) ∧ kept 6 = some none ∧
      (s.runScript game () (.life 0) {}).result = .error (.broken "6 CASE" .noSwitchValue) := by
  decide +kernel

end Scene

end SceneScript
