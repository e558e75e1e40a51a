import SceneScript.Proofs.Effects

/-! # Runs step by step

* `Run.Steps cx n r s`: `n` instructions of the running script are executed one after the other,
  without a fault, and take the run from `r` to `s`.
* `Run.Stops cx r o`: the run stops in `r`, with outcome `o`.
* `halts_or_at`: a run is at an instruction or stops at once, with `halt?`.
* `drive_stops`: whatever the budget, a run takes some steps and then stops, so a fact about runs is
  a fact about one step.
* `Steps.drive`: conversely, steps are taken by every run whose budget allows them. -/

namespace SceneScript

namespace Run

variable {σ : Type}

/-! ### Steps -/

/-- The running script is at an instruction. -/
def At (cx : RunContext σ) (r : Run σ) (offset : Nat) (i : Instruction) : Prop :=
  (r.script cx.script).running = true ∧ (r.script cx.script).offset = offset ∧
    cx.program.instructions[offset]? = some i

/-- Instructions executed one after the other. -/
inductive Steps (cx : RunContext σ) : Nat → Run σ → Run σ → Prop
  | refl (r : Run σ) : Steps cx 0 r r
  | more {n offset : Nat} {i : Instruction} {r s t : Run σ} : At cx r offset i →
      step cx offset i r = (.ok (), s) → Steps cx n s t → Steps cx (n + 1) r t

/-- Where a run stops, and with what. -/
inductive Stops (cx : RunContext σ) (r : Run σ) : Except Fault Unit × Run σ → Prop
  | ended : (r.script cx.script).running = false → Stops cx r (.ok (), r)
  | overrun {offset : Nat} : (r.script cx.script).running = true →
      (r.script cx.script).offset = offset → cx.program.instructions.size ≤ offset →
      Stops cx r (.error (.overrun offset cx.program.instructions.size), r)
  | exhausted {offset : Nat} {i : Instruction} : At cx r offset i →
      Stops cx r (.error (.gasExhausted cx.gasLimit), r)
  | fault {offset : Nat} {i : Instruction} {f : Fault} {after : Run σ} : At cx r offset i →
      step cx offset i r = (.error f, after) → Stops cx r (.error f, after)

theorem drive_of_ended {cx : RunContext σ} {r : Run σ}
    (h : (r.script cx.script).running = false) (gas : Nat) : drive cx gas r = (.ok (), r) := by
  rw [drive]
  simp [h]

theorem drive_of_overrun {cx : RunContext σ} {r : Run σ}
    (h : (r.script cx.script).running = true)
    (hi : cx.program.instructions[(r.script cx.script).offset]? = none) (gas : Nat) :
    drive cx gas r =
      (.error (.overrun (r.script cx.script).offset cx.program.instructions.size), r) := by
  rw [drive]
  simp [h, hi]

theorem drive_zero_of_at {cx : RunContext σ} {r : Run σ} {offset : Nat} {i : Instruction}
    (h : At cx r offset i) : drive cx 0 r = (.error (.gasExhausted cx.gasLimit), r) := by
  obtain ⟨hrun, rfl, hi⟩ := h
  rw [drive]
  simp [hrun, hi]

theorem drive_succ_of_at {cx : RunContext σ} {r : Run σ} {offset : Nat} {i : Instruction}
    (h : At cx r offset i) (gas : Nat) :
    drive cx (gas + 1) r =
      match step cx offset i r with
      | (.error fault, s) => (.error fault, s)
      | (.ok (), s) => drive cx gas s := by
  obtain ⟨hrun, rfl, hi⟩ := h
  rw [drive]
  cases hs : step cx (r.script cx.script).offset i r with
  | mk result s => cases result <;> simp [hrun, hi, hs]

/-- What a run stops with that is at no instruction: its script has ended, or has run off the end of
its program. -/
def halt? (cx : RunContext σ) (r : Run σ) : Option (Except Fault Unit) :=
  let s := r.script cx.script
  if s.running then
    if s.offset < cx.program.instructions.size then none
    else some (.error (.overrun s.offset cx.program.instructions.size))
  else some (.ok ())

theorem halts_or_at (cx : RunContext σ) (r : Run σ) :
    (∃ result, halt? cx r = some result) ∨ ∃ offset i, At cx r offset i := by
  cases hrun : (r.script cx.script).running with
  | false => exact .inl ⟨.ok (), by simp [halt?, hrun]⟩
  | true =>
      by_cases hlt : (r.script cx.script).offset < cx.program.instructions.size
      · exact .inr ⟨_, _, hrun, rfl, Array.getElem?_eq_getElem hlt⟩
      · left
        simp [halt?, hrun, hlt]

theorem halt?_eq_some {cx : RunContext σ} {r : Run σ} {result : Except Fault Unit}
    (h : halt? cx r = some result) :
    ((r.script cx.script).running = false ∧ result = .ok ()) ∨
      ((r.script cx.script).running = true ∧
        cx.program.instructions.size ≤ (r.script cx.script).offset ∧
        result = .error (.overrun (r.script cx.script).offset cx.program.instructions.size)) := by
  unfold halt? at h
  cases hrun : (r.script cx.script).running with
  | false =>
      simp only [hrun, Bool.false_eq_true, if_false, Option.some.injEq] at h
      exact .inl ⟨rfl, h.symm⟩
  | true =>
      by_cases hlt : (r.script cx.script).offset < cx.program.instructions.size
      · simp [hrun, hlt] at h
      · simp only [hrun, if_true, if_neg hlt, Option.some.injEq] at h
        exact .inr ⟨rfl, Nat.le_of_not_lt hlt, h.symm⟩

theorem Stops.of_halt? {cx : RunContext σ} {r : Run σ} {result : Except Fault Unit}
    (h : halt? cx r = some result) : Stops cx r (result, r) := by
  rcases halt?_eq_some h with ⟨hrun, rfl⟩ | ⟨hrun, hle, rfl⟩
  · exact .ended hrun
  · exact .overrun hrun rfl hle

/-- It stops at once, whatever its budget. -/
theorem drive_of_halt? {cx : RunContext σ} {r : Run σ} {result : Except Fault Unit}
    (h : halt? cx r = some result) (gas : Nat) : drive cx gas r = (result, r) := by
  rcases halt?_eq_some h with ⟨hrun, rfl⟩ | ⟨hrun, hle, rfl⟩
  · exact drive_of_ended hrun gas
  · exact drive_of_overrun hrun (Array.getElem?_eq_none hle) gas

/-- A run takes some steps, as many as its budget at most, and stops. -/
theorem drive_stops (cx : RunContext σ) (gas : Nat) (r : Run σ) :
    ∃ n s, n ≤ gas ∧ Steps cx n r s ∧ Stops cx s (drive cx gas r) := by
  induction gas generalizing r with
  | zero =>
      refine ⟨0, r, Nat.le_refl 0, .refl r, ?_⟩
      rcases halts_or_at cx r with ⟨result, hhalt⟩ | ⟨offset, i, hat⟩
      · rw [drive_of_halt? hhalt]
        exact .of_halt? hhalt
      · rw [drive_zero_of_at hat]
        exact .exhausted hat
  | succ gas ih =>
      rcases halts_or_at cx r with ⟨result, hhalt⟩ | ⟨offset, i, hat⟩
      · refine ⟨0, r, Nat.zero_le _, .refl r, ?_⟩
        rw [drive_of_halt? hhalt]
        exact .of_halt? hhalt
      · rw [drive_succ_of_at hat]
        rcases hs : step cx offset i r with ⟨fault | u, s⟩
        · exact ⟨0, r, Nat.zero_le _, .refl r, .fault hat hs⟩
        · obtain ⟨n, t, hn, hsteps, hstops⟩ := ih s
          exact ⟨n + 1, t, Nat.succ_le_succ hn, .more hat hs hsteps, hstops⟩

/-- Steps are taken by every run whose budget allows them. -/
theorem Steps.drive {cx : RunContext σ} {n : Nat} {r s : Run σ} (h : Steps cx n r s) (gas : Nat) :
    Run.drive cx (gas + n) r = Run.drive cx gas s := by
  induction h with
  | refl r => rfl
  | more hat hstep _ ih =>
      rw [← Nat.add_assoc, drive_succ_of_at hat, hstep]
      exact ih

theorem Steps.trans {cx : RunContext σ} {m n : Nat} {r s t : Run σ} (h : Steps cx m r s)
    (h' : Steps cx n s t) : Steps cx (m + n) r t := by
  induction h with
  | refl r => rwa [Nat.zero_add]
  | @more m _ _ _ _ _ hat hstep _ ih =>
      rw [Nat.add_right_comm]
      exact .more hat hstep (ih h')

/-- What every step keeps, all steps keep. -/
theorem Steps.invariant {cx : RunContext σ} {P : Run σ → Prop}
    (hstep : ∀ {r s : Run σ} {offset : Nat} {i : Instruction}, At cx r offset i →
      step cx offset i r = (.ok (), s) → P r → P s)
    {n : Nat} {r s : Run σ} (h : Steps cx n r s) (hr : P r) : P s := by
  induction h with
  | refl r => exact hr
  | more hat hs _ ih => exact ih (hstep hat hs hr)

/-! ### One step -/

/-- The states in which an instruction of a script is executed: the script has no point to resume
at yet. -/
def entered (cx : RunContext σ) (r : Run σ) : Array ActorState :=
  SceneScript.modifyScript r.states cx.script fun s => { s with reentry := none }

/-- The run in which an instruction of the script is executed. -/
def arrived (cx : RunContext σ) (offset : Nat) (r : Run σ) : Run σ :=
  ⟨entered cx r, r.memory, r.host, r.visited.push offset⟩

theorem perform_of_skipped {cx : RunContext σ} {i : Instruction}
    (h : (cx.headless && i.opcode.skippedHeadless) = true) (offset : Nat) (r : Run σ) :
    perform cx offset i r = (.ok .advance, r) := by
  rw [perform, if_pos h]

/-- The scratch records after an instruction: its own is kept if its opcode keeps one. -/
def record (i : Instruction) (offset : Nat) (c : CallState) (m : Memory) : Memory :=
  if i.opcode.needsCallState then m.insert offset c else m

theorem callState_record {i : Instruction} {k j : Nat} (c : CallState) (m : Memory) (h : j ≠ k) :
    (record i k c m).callState j = m.callState j := by
  unfold record
  split
  · rw [Memory.callState, Std.TreeMap.getD_insert, if_neg]
    · rfl
    · rw [compare_eq_iff_eq]
      exact h.symm
  · rfl

theorem callState_record_self {i : Instruction} (h : i.opcode.needsCallState = true) (k : Nat)
    (c : CallState) (m : Memory) : (record i k c m).callState k = c := by
  rw [record, if_pos h, Memory.callState, Std.TreeMap.getD_insert_self]

theorem perform_of_execute {cx : RunContext σ} {i : Instruction} {offset : Nat} {r : Run σ}
    {result : Except Fault Flow} {w : World σ}
    (h : (cx.headless && i.opcode.skippedHeadless) = false)
    (hx : (Step.execute cx.host ⟨cx.script, offset, cx.time⟩ i).run
      ⟨r.states, r.memory.callState offset, r.host⟩ = (result, w)) :
    perform cx offset i r =
      (result, ⟨w.states, record i offset w.callState r.memory, w.host, r.visited⟩) := by
  rw [perform, if_neg (by simp [h])]
  dsimp only
  rw [hx]
  rfl

theorem step_eq (cx : RunContext σ) (offset : Nat) (i : Instruction) (r : Run σ) :
    step cx offset i r =
      match perform cx offset i (arrived cx offset r) with
      | (.error fault, s) => (.error fault, s)
      | (.ok flow, s) => (.ok (), s.modifyScript cx.script (flow.apply offset)) := rfl

theorem step_of_perform_ok {cx : RunContext σ} {offset : Nat} {i : Instruction} {r s : Run σ}
    {flow : Flow} (h : perform cx offset i (arrived cx offset r) = (.ok flow, s)) :
    step cx offset i r = (.ok (), s.modifyScript cx.script (flow.apply offset)) := by
  rw [step_eq, h]

theorem step_of_perform_error {cx : RunContext σ} {offset : Nat} {i : Instruction} {r s : Run σ}
    {f : Fault} (h : perform cx offset i (arrived cx offset r) = (.error f, s)) :
    step cx offset i r = (.error f, s) := by
  rw [step_eq, h]

/-- A step of a scene that is not headless. -/
theorem step_of_execute {cx : RunContext σ} {offset : Nat} {i : Instruction} {r : Run σ}
    {flow : Flow} {w : World σ} (hheadless : cx.headless = false)
    (hx : (Step.execute cx.host ⟨cx.script, offset, cx.time⟩ i).run
      ⟨entered cx r, r.memory.callState offset, r.host⟩ = (.ok flow, w)) :
    step cx offset i r = (.ok (), ⟨SceneScript.modifyScript w.states cx.script (flow.apply offset),
      record i offset w.callState r.memory, w.host, r.visited.push offset⟩) := by
  have hskip : (cx.headless && i.opcode.skippedHeadless) = false := by rw [hheadless]; rfl
  have hperform : perform cx offset i (arrived cx offset r) = _ := perform_of_execute hskip hx
  exact step_of_perform_ok hperform

/-- What comes of an instruction in a run. One that a headless scene passes over does nothing. -/
theorem perform_acts (cx : RunContext σ) (offset : Nat) (i : Instruction) (r : Run σ) :
    ∃ c w, Acts cx.host ⟨cx.script, offset, cx.time⟩ i r.states c (perform cx offset i r).1 w ∧
      (perform cx offset i r).2.states = w.states := by
  cases h : cx.headless && i.opcode.skippedHeadless with
  | true =>
      rw [perform_of_skipped h]
      exact ⟨{}, ⟨r.states, {}, r.host⟩, .effect .advance (modifyScript_id _ _).symm fun _ => rfl, rfl⟩
  | false =>
      have hacts : (Step.execute cx.host ⟨cx.script, offset, cx.time⟩ i).Ends
          ⟨r.states, r.memory.callState offset, r.host⟩
          (Acts cx.host ⟨cx.script, offset, cx.time⟩ i r.states (r.memory.callState offset)) :=
        Executes.execute r.host
      rcases hx : (Step.execute cx.host ⟨cx.script, offset, cx.time⟩ i).run
        ⟨r.states, r.memory.callState offset, r.host⟩ with ⟨result, w⟩
      unfold Exec.Ends at hacts
      rw [hx] at hacts
      rw [perform_of_execute h hx]
      exact ⟨_, w, hacts, rfl⟩

/-- A step comes to what its instruction does, and then moves the script on. -/
theorem step_acts (cx : RunContext σ) (offset : Nat) (i : Instruction) (r : Run σ) :
    ∃ c result w, Acts cx.host ⟨cx.script, offset, cx.time⟩ i (entered cx r) c result w ∧
      (step cx offset i r).1 = result.map (fun _ => ()) ∧
      (step cx offset i r).2.states =
        match result with
        | .ok flow => SceneScript.modifyScript w.states cx.script (flow.apply offset)
        | .error _ => w.states := by
  obtain ⟨c, w, hacts, hstates⟩ := perform_acts cx offset i (arrived cx offset r)
  refine ⟨c, _, w, hacts, ?_⟩
  rw [← hstates]
  rcases hp : perform cx offset i (arrived cx offset r) with ⟨fault | flow, s⟩
  · rw [step_of_perform_error hp]
    exact ⟨rfl, rfl⟩
  · rw [step_of_perform_ok hp]
    exact ⟨rfl, rfl⟩

/-- A step that faults fails for a reason of its instruction. -/
theorem fails_of_step {cx : RunContext σ} {r after : Run σ} {offset : Nat} {i : Instruction}
    {f : Fault} (h : step cx offset i r = (.error f, after)) :
    Fails ⟨cx.script, offset, cx.time⟩ i (entered cx r) f := by
  obtain ⟨c, result, w, hacts, hresult, -⟩ := step_acts cx offset i r
  rw [h] at hresult
  cases result with
  | ok flow => cases hresult
  | error f' =>
      cases hresult
      generalize hr : (Except.error f : Except Fault Flow) = result at hacts
      cases hacts with
      | effect => cases hr
      | fault hf =>
          cases hr
          exact hf
      | @hosted call g _ _ _ _ =>
          cases hflow : (cx.host.execute call g).1.flow with
          | ok flow =>
              rw [hflow] at hr
              cases hr
          | error e =>
              rw [hflow] at hr
              cases hr
              exact .host e

theorem visited_perform (cx : RunContext σ) (offset : Nat) (i : Instruction) (r : Run σ) :
    (perform cx offset i r).2.visited = r.visited := by
  unfold perform
  split <;> rfl

theorem visited_step (cx : RunContext σ) (offset : Nat) (i : Instruction) (r : Run σ) :
    (step cx offset i r).2.visited = r.visited.push offset := by
  unfold step
  dsimp only
  split
  · next fault s hp =>
      have h := visited_perform cx offset i
        ⟨entered cx r, r.memory, r.host, r.visited.push offset⟩
      exact (congrArg (fun o => o.2.visited) hp).symm.trans h
  · next flow s hp =>
      have h := visited_perform cx offset i
        ⟨entered cx r, r.memory, r.host, r.visited.push offset⟩
      exact (congrArg (fun o => o.2.visited) hp).symm.trans h

/-- Steps change no number of actors. -/
theorem size_step (cx : RunContext σ) (offset : Nat) (i : Instruction) (r : Run σ) :
    (step cx offset i r).2.states.size = r.states.size := by
  obtain ⟨c, result, w, hacts, -, hstates⟩ := step_acts cx offset i r
  have hw : w.states.size = r.states.size := by
    rw [hacts.size, entered, size_modifyScript]
  rw [hstates]
  split
  · simp [hw]
  · exact hw

theorem Steps.size {cx : RunContext σ} {n : Nat} {r s : Run σ} (h : Steps cx n r s) :
    s.states.size = r.states.size := by
  have hstep : ∀ {u v : Run σ} {offset : Nat} {i : Instruction}, At cx u offset i →
      step cx offset i u = (.ok (), v) → u.states.size = r.states.size →
      v.states.size = r.states.size := by
    intro u v offset i _ hs hu
    rw [← hu, ← size_step cx offset i u, hs]
  exact h.invariant hstep rfl

theorem Stops.size {cx : RunContext σ} {r : Run σ} {o : Except Fault Unit × Run σ}
    (h : Stops cx r o) : o.2.states.size = r.states.size := by
  cases h with
  | ended | overrun | exhausted => rfl
  | @fault offset i f after _ hs => rw [← size_step cx offset i r, hs]

end Run

/-! ### Runs of a scene -/

/-- The game that accepts every command, answers every question with zero and leaves the states
alone. -/
def Host.quiet : Host Unit where
  execute call _ := (⟨.ok .advance, call.actor, call.callState⟩, ())
  evaluate _ _ := (.ok 0, ())

namespace Scene

variable {σ : Type}

/-- What stays fixed while a script of the scene runs. -/
def context (s : Scene) (host : Host σ) (id : ScriptId) (program : Program) (time : FrameTime) :
    RunContext σ :=
  ⟨host, id, program, time, s.config.headless, s.config.gasLimit⟩

/-- The run of a script of the scene before its first instruction, at an offset. -/
def started (s : Scene) (h : σ) (id : ScriptId) (offset : Nat) : Run σ where
  states := modifyScript s.states id fun t => { t with offset := offset, running := true }
  memory := (s.memory.getD id.actor {}).get id.kind
  host := h

/-- The run of a script comes to an instruction, in the run `r`. -/
def ComesTo (s : Scene) (host : Host σ) (h : σ) (id : ScriptId) (time : FrameTime) (r : Run σ)
    (offset : Nat) (i : Instruction) : Prop :=
  ∃ program start n, s.program? id = some program ∧ (scriptAt s.states id).reentry = some start ∧
    Run.Steps (s.context host id program time) n (s.started h id start) r ∧
    Run.At (s.context host id program time) r offset i

theorem runScript_of_terminated {s : Scene} {id : ScriptId} {program : Program}
    (hp : s.program? id = some program) (hr : (scriptAt s.states id).reentry = none)
    (host : Host σ) (h : σ) (time : FrameTime) :
    (s.runScript host h id time).result = .ok 0 ∧
      (s.runScript host h id time).scene.states = s.states := by
  have hstart : ∀ cx : RunContext σ, cx.script = id → ∀ memory,
      Run.start cx { states := s.states, memory, host := h } =
        (.ok (), { states := s.states, memory, host := h }) := by
    rintro cx rfl memory
    unfold Run.start
    have hr' : (Run.script ⟨s.states, memory, h, #[]⟩ cx.script).reentry = none := hr
    rw [hr']
  constructor <;> simp [runScript, hp, hstart]

/-- Running a script that has not ended is driving it from its resume point. -/
theorem runScript_of_drive {s : Scene} {id : ScriptId} {program : Program} {start : Nat}
    (hp : s.program? id = some program) (hr : (scriptAt s.states id).reentry = some start)
    {host : Host σ} {h : σ} {time : FrameTime} {o : Except Fault Unit × Run σ}
    (hd : Run.drive (s.context host id program time) s.config.gasLimit (s.started h id start) = o) :
    (s.runScript host h id time).result = o.1.map (fun _ => o.2.visited.size) ∧
      (s.runScript host h id time).visited = o.2.visited.toList ∧
      (s.runScript host h id time).host = o.2.host ∧
      (s.runScript host h id time).scene.states =
        match o.1 with
        | .ok _ => o.2.states
        | .error _ => modifyScript o.2.states id ScriptState.terminate := by
  obtain ⟨result, last⟩ := o
  have hrun : Run.start (s.context host id program time)
      { states := s.states, memory := (s.memory.getD id.actor {}).get id.kind, host := h } =
        (result, last) := by
    unfold Run.start
    have hr' : (Run.script ⟨s.states, (s.memory.getD id.actor {}).get id.kind, h, #[]⟩ id).reentry =
        some start := hr
    rw [show (s.context host id program time).script = id from rfl, hr']
    exact hd
  unfold context at hrun
  unfold runScript
  simp only [hp, hrun]
  cases result with
  | ok u => exact ⟨by simp [Except.map], rfl, rfl, rfl⟩
  | error f => exact ⟨rfl, rfl, rfl, rfl⟩

/-- A script that has not ended takes some steps from its resume point and stops. -/
theorem runScript_stops {s : Scene} {id : ScriptId} {program : Program} {start : Nat}
    (hp : s.program? id = some program) (hr : (scriptAt s.states id).reentry = some start)
    (host : Host σ) (h : σ) (time : FrameTime) :
    ∃ n r result last, Run.Steps (s.context host id program time) n (s.started h id start) r ∧
      Run.Stops (s.context host id program time) r (result, last) ∧
      (s.runScript host h id time).result = result.map (fun _ => last.visited.size) ∧
      (s.runScript host h id time).visited = last.visited.toList ∧
      (s.runScript host h id time).scene.states =
        match result with
        | .ok _ => last.states
        | .error _ => modifyScript last.states id ScriptState.terminate := by
  obtain ⟨n, r, -, hsteps, hstops⟩ := Run.drive_stops (s.context host id program time)
    s.config.gasLimit (s.started h id start)
  rcases hd : Run.drive (s.context host id program time) s.config.gasLimit
    (s.started h id start) with ⟨result, last⟩
  rw [hd] at hstops
  obtain ⟨hresult, hvisited, -, hstates⟩ := runScript_of_drive hp hr hd
  exact ⟨n, r, result, last, hsteps, hstops, hresult, hvisited, hstates⟩

/-- A run that ends with a fault ran off its program, spent its budget, or came to an instruction that
raised the fault. -/
theorem runScript_error_cases {s : Scene} {id : ScriptId} {program : Program}
    (hp : s.program? id = some program) {host : Host σ} {h : σ} {time : FrameTime} {fault : Fault}
    (hfault : (s.runScript host h id time).result = .error fault) :
    (∃ offset length, fault = .overrun offset length) ∨ (∃ limit, fault = .gasExhausted limit) ∨
      ∃ r offset i last, s.ComesTo host h id time r offset i ∧
        Run.At (s.context host id program time) r offset i ∧ r.states.size = s.states.size ∧
        Run.step (s.context host id program time) offset i r = (.error fault, last) ∧
        (s.runScript host h id time).visited = last.visited.toList ∧
        (s.runScript host h id time).scene.states =
          modifyScript last.states id ScriptState.terminate := by
  cases hr : (scriptAt s.states id).reentry with
  | none =>
      rw [(runScript_of_terminated hp hr host h time).1] at hfault
      cases hfault
  | some start =>
      obtain ⟨n, r, result, last, hsteps, hstops, hresult, hvisited, hstates⟩ :=
        runScript_stops hp hr host h time
      rw [hfault] at hresult
      cases result with
      | ok u => cases hresult
      | error f =>
          cases hresult
          generalize ho : ((Except.error fault : Except Fault Unit), last) = outcome at hstops
          cases hstops with
          | ended => cases ho
          | overrun =>
              cases ho
              exact .inl ⟨_, _, rfl⟩
          | exhausted =>
              cases ho
              exact .inr (.inl ⟨_, rfl⟩)
          | @fault offset i f after hat hstep =>
              cases ho
              have hsize : r.states.size = s.states.size := by
                rw [hsteps.size, started, size_modifyScript]
              exact .inr (.inr ⟨r, offset, i, last, ⟨program, start, n, hp, hr, hsteps, hat⟩,
                hat, hsize, hstep, hvisited, hstates⟩)

/-- Running a script changes no program. -/
@[simp] theorem programs_runScript (s : Scene) (host : Host σ) (h : σ) (id : ScriptId)
    (time : FrameTime) : (s.runScript host h id time).scene.programs = s.programs := by
  unfold runScript
  split
  · rfl
  · dsimp only
    split <;> rfl

theorem program?_runScript (s : Scene) (host : Host σ) (h : σ) (id other : ScriptId)
    (time : FrameTime) :
    (s.runScript host h id time).scene.program? other = s.program? other := by
  rw [Scene.program?, programs_runScript, Scene.program?]

/-- Running a script changes no number of actors. -/
theorem size_runScript (s : Scene) (host : Host σ) (h : σ) (id : ScriptId) (time : FrameTime) :
    (s.runScript host h id time).scene.states.size = s.states.size := by
  cases hp : s.program? id with
  | none => simp [runScript, hp]
  | some program =>
      cases hr : (scriptAt s.states id).reentry with
      | none => rw [(runScript_of_terminated hp hr host h time).2]
      | some start =>
          obtain ⟨n, r, result, last, hsteps, hstops, -, -, hstates⟩ :=
            runScript_stops hp hr host h time
          have hlast : last.states.size = s.states.size := by
            have hr' : r.states.size = s.states.size := by
              rw [hsteps.size, started, size_modifyScript]
            rw [← hr', hstops.size]
          rw [hstates]
          split
          · exact hlast
          · rw [size_modifyScript, hlast]

/-! ### Scenes in play -/

/-- A scene with the programs of a source compiled with the standard catalog, whatever the states of
its actors. -/
structure Plays (s : Scene) (source : SceneSource) : Prop where
  programs : s.programs = (compileScene .standard source).actors.map CompiledActor.programs
  size : s.states.size = source.actors.length

theorem plays_ofCompiled (source : SceneSource) (config : Config) :
    (ofCompiled (compileScene .standard source) config).Plays source := by
  refine ⟨rfl, ?_⟩
  simp [ofCompiled, SceneSource.size_compileScene_actors]

theorem Plays.program? {s : Scene} {source : SceneSource} (h : s.Plays source) (id : ScriptId) :
    s.program? id = (source.parsed? .standard id).map (source.program .standard) := by
  rw [← SceneSource.program?_ofCompiled .standard source {} id]
  unfold Scene.program? ofCompiled
  rw [h.programs]

theorem Plays.runScript {s : Scene} {source : SceneSource} (hs : s.Plays source) (host : Host σ)
    (h : σ) (id : ScriptId) (time : FrameTime) :
    (s.runScript host h id time).scene.Plays source := by
  refine ⟨?_, ?_⟩
  · rw [programs_runScript, hs.programs]
  · rw [size_runScript, hs.size]

theorem Plays.size? {s : Scene} {source : SceneSource} (h : s.Plays source) (id : ScriptId)
    (p : Program) (hp : s.program? id = some p) :
    source.size? .standard id = some p.instructions.size := by
  rw [h.program?, Option.map_eq_some_iff] at hp
  obtain ⟨parsed, hparsed, rfl⟩ := hp
  rw [SceneSource.size?, hparsed, SceneSource.size_instructions]
  rfl

theorem Plays.sound {s : Scene} {source : SceneSource} (h : s.Plays source) {id : ScriptId}
    {program : Program} (hp : s.program? id = some program) {k : Nat} {i : Instruction}
    (hi : program.instructions[k]? = some i) :
    i.Sound (source.size? .standard) source.actors.length id := by
  rw [h.program?, Option.map_eq_some_iff] at hp
  obtain ⟨parsed, hparsed, rfl⟩ := hp
  exact SceneSource.sound_of_getElem? hparsed hi

/-- What a headless scene passes over in the standard catalog are commands of the game. -/
theorem standard_skippedHeadless :
    ((Catalog.standardLife.toList ++ Catalog.standardMoves.toList).all fun d =>
      !d.skippedHeadless || d.operation.isHosted) = true := by
  decide +kernel

theorem standard_hosted_of_skippedHeadless {kind : ScriptKind} {code : UInt8} {d : Opcode}
    (h : Catalog.standard.opcode? kind code = some d) (hskip : d.skippedHeadless = true) :
    d.operation.isHosted = true := by
  have hmem := Array.mem_toList_iff.mpr (entryAt?_code h).2
  have hall := List.all_eq_true.mp standard_skippedHeadless d
  have hd : (!d.skippedHeadless || d.operation.isHosted) = true := by
    cases kind with
    | life => exact hall (List.mem_append_left _ hmem)
    | move => exact hall (List.mem_append_right _ hmem)
  rwa [hskip, Bool.not_true, Bool.false_or] at hd

theorem Plays.hosted_of_skipped {s : Scene} {source : SceneSource} (h : s.Plays source)
    {id : ScriptId} {program : Program} (hp : s.program? id = some program) {k : Nat}
    {i : Instruction} (hi : program.instructions[k]? = some i)
    (hskip : i.opcode.skippedHeadless = true) : i.operation.isHosted = true := by
  rw [h.program?, Option.map_eq_some_iff] at hp
  obtain ⟨parsed, hparsed, rfl⟩ := hp
  rw [SceneSource.getElem?_instructions .standard source hparsed, Option.map_eq_some_iff] at hi
  obtain ⟨c, hc, rfl⟩ := hi
  rw [SceneSource.instruction_opcode] at hskip
  rw [SceneSource.instruction_operation]
  rw [SceneSource.parsed?_eq, Option.map_eq_some_iff] at hparsed
  obtain ⟨bytes, -, rfl⟩ := hparsed
  rcases parseScript_commands_conform (Array.mem_of_getElem? hc) with hadded | ⟨enclosing, hconf⟩
  · -- The markers that parsing adds are commands of the engine.
    have hkept : ∀ o ∈ [Operation.endIf, .endSwitch, .behaviour],
        (Catalog.standard.marker o).skippedHeadless = false := by decide +kernel
    generalize hd : c = d at hadded hskip
    cases hadded with
    | endIf => exact absurd (hskip.symm.trans (hkept .endIf (by simp))) (by decide)
    | endSwitch => exact absurd (hskip.symm.trans (hkept .endSwitch (by simp))) (by decide)
    | behaviour n => exact absurd (hskip.symm.trans (hkept .behaviour (by simp))) (by decide)
  · exact standard_hosted_of_skippedHeadless hconf.opcode hskip

/-- Instructions of the engine are executed in headless scenes too. -/
theorem Plays.not_skipped {s : Scene} {source : SceneSource} (h : s.Plays source) {id : ScriptId}
    {program : Program} (hp : s.program? id = some program) {k : Nat} {i : Instruction}
    (hi : program.instructions[k]? = some i) (hop : i.operation.isHosted = false)
    (headless : Bool) : (headless && i.opcode.skippedHeadless) = false := by
  cases hskip : i.opcode.skippedHeadless with
  | false => exact Bool.and_false headless
  | true => exact absurd ((h.hosted_of_skipped hp hi hskip).symm.trans hop) (by decide)

/-- A script that has a program is of an actor of the scene. -/
theorem Plays.actor_lt {s : Scene} {source : SceneSource} (h : s.Plays source) {id : ScriptId}
    {program : Program} (hp : s.program? id = some program) : id.actor < s.states.size := by
  unfold Scene.program? at hp
  obtain ⟨a, ha, -⟩ := Option.map_eq_some_iff.mp hp
  have hlt := (Array.getElem?_eq_some_iff.mp ha).1
  rw [h.programs, Array.size_map, SceneSource.size_compileScene_actors] at hlt
  rwa [h.size]

end Scene

end SceneScript
