import Mathlib.Algebra.BigOperators.Group.List.Basic
import Mathlib.Data.List.Nodup
import SceneScript.Proofs.Frames
import SceneScript.Proofs.Headless

/-! # Traces

A run records the instructions it executes, and a frame of a scene with tracing on keeps these
records as its trace.

Tracing is an observer. No step of a run looks at the record (`Run.step_onto`), so neither does a
run, whatever way it ends (`Run.drive_onto`, `Run.start_onto`); and `Scene.untraced`, the scene
without a trace that keeps none, goes through any history as the scene does (`Scene.play_untraced`).
`Scene.play_traced` says both.

Traces and reports count differently. A script that faults has its instructions in the trace, but
not in the number of steps that the report gives: `Scene.runFrame_steps` says by how much the two
differ, and that they agree exactly in those frames in which no script faults after it has executed
something. -/

namespace SceneScript

/-! ### Records of runs -/

namespace Run

variable {σ : Type} {cx : RunContext σ}

/-- The run, with more recorded before it. -/
def onto (record : Array Nat) (r : Run σ) : Run σ := { r with visited := record ++ r.visited }

theorem modifyScript_onto (record : Array Nat) (r : Run σ) (id : ScriptId)
    (f : ScriptState → ScriptState) :
    (r.onto record).modifyScript id f = (r.modifyScript id f).onto record := rfl

theorem perform_onto (record : Array Nat) (offset : Nat) (i : Instruction) (r : Run σ) :
    perform cx offset i (r.onto record) =
      ((perform cx offset i r).1, (perform cx offset i r).2.onto record) := by
  unfold perform
  split <;> rfl

/-- A step adds its instruction to the record and does not look at it otherwise. -/
theorem step_onto (record : Array Nat) (offset : Nat) (i : Instruction) (r : Run σ) :
    step cx offset i (r.onto record) =
      ((step cx offset i r).1, (step cx offset i r).2.onto record) := by
  have harrived : arrived cx offset (r.onto record) = (arrived cx offset r).onto record := by
    unfold arrived onto
    rw [Array.push_append]
    rfl
  rw [step_eq, step_eq, harrived, perform_onto]
  rcases perform cx offset i (arrived cx offset r) with ⟨fault | flow, s⟩ <;> rfl

/-- **A run does not depend on its record**, and adds to it what it would record alone. -/
theorem drive_onto (record : Array Nat) (gas : Nat) (r : Run σ) :
    drive cx gas (r.onto record) = ((drive cx gas r).1, (drive cx gas r).2.onto record) := by
  -- Where a run stops does not depend on the record either.
  have hhalts : ∀ r : Run σ, halt? cx (r.onto record) = halt? cx r := fun _ => rfl
  induction gas generalizing r with
  | zero =>
      rcases halts_or_at cx r with ⟨result, hhalt⟩ | ⟨offset, i, hat⟩
      · rw [drive_of_halt? hhalt, drive_of_halt? ((hhalts r).trans hhalt)]
      · have hat' : At cx (r.onto record) offset i := hat
        rw [drive_zero_of_at hat, drive_zero_of_at hat']
  | succ gas ih =>
      rcases halts_or_at cx r with ⟨result, hhalt⟩ | ⟨offset, i, hat⟩
      · rw [drive_of_halt? hhalt, drive_of_halt? ((hhalts r).trans hhalt)]
      · have hat' : At cx (r.onto record) offset i := hat
        rw [drive_succ_of_at hat, drive_succ_of_at hat', step_onto]
        rcases step cx offset i r with ⟨fault | u, s⟩
        · rfl
        · exact ih s

theorem start_onto (cx : RunContext σ) (record : Array Nat) (r : Run σ) :
    start cx (r.onto record) = ((start cx r).1, (start cx r).2.onto record) := by
  have hscript : (r.onto record).script cx.script = r.script cx.script := rfl
  unfold start
  rw [hscript]
  split
  · rfl
  · rw [modifyScript_onto, drive_onto]

end Run

/-! ### Scenes without a trace -/

namespace Scene

variable {σ : Type} {s : Scene}

def withTracing (s : Scene) (on : Bool) : Scene :=
  { s with config := { s.config with trace := on } }

/-- The scene without a trace, with tracing off. -/
def untraced (s : Scene) : Scene := { s.withTracing false with trace := none }

theorem runScript_untraced (s : Scene) (host : Host σ) (h : σ) (id : ScriptId) (time : FrameTime) :
    s.untraced.runScript host h id time = (s.runScript host h id time).mapScene untraced := by
  cases hp : s.program? id with
  | none =>
      have hp' : s.untraced.program? id = none := hp
      simp only [runScript, hp, hp']
      rfl
  | some program =>
      have hrun : s.untraced.runScript host h id time = s.untraced.outcome id
          (Run.start (s.context host id program time) (s.ready h id)) :=
        runScript_eq_outcome (s := s.untraced) hp host h time
      rw [runScript_eq_outcome hp, hrun]
      rcases Run.start (s.context host id program time) (s.ready h id) with ⟨fault | u, r⟩ <;> rfl

theorem unseen_untraced : Unseen (fun _ => True) untraced where
  keeps _ _ _ _ _ := trivial
  run host h id time _ := runScript_untraced _ host h id time
  visit _ _ _ := rfl

theorem runFrame_untraced (s : Scene) (host : Host σ) (h : σ) (time : FrameTime) :
    s.untraced.runFrame host h time =
      let (report, t, g) := s.runFrame host h time
      (report, t.untraced, g) := by
  have hdone := unseen_untraced.foldl host time s.scripts
    (p := ⟨{ s with frame := s.frame + 1 }, h, { frame := s.frame + 1 }, []⟩) trivial
  have hscripts : s.untraced.scripts = s.scripts := rfl
  unfold runFrame
  rw [hscripts]
  exact congrArg (fun p : FrameProgress σ => (p.report, { p.scene with trace := none }, p.host)) hdone

theorem aside_untraced : Aside untraced := by
  constructor <;> intros <;> rfl

theorem serve_untraced (s : Scene) (h : σ) (request : Request σ) :
    s.untraced.serve h request =
      let (answer, t, g) := s.serve h request
      (answer, t.untraced, g) := by
  cases request with
  | frame host time => rw [serve, serve, runFrame_untraced]
  | script host id time =>
      rw [serve, serve, runScript_untraced]
      rfl
  | kill actor => rw [serve, serve, aside_untraced.killActor, attempt_map untraced]
  | revive actor => rw [serve, serve, aside_untraced.reviveActor rfl, attempt_map untraced]
  | restore x => rw [serve, serve, aside_untraced.restore, attempt_map untraced]

/-- **A history** does not show whether there is a trace. -/
theorem play_untraced (s : Scene) (h : σ) (requests : List (Request σ)) :
    s.untraced.play h requests =
      let (answers, t, g) := s.play h requests
      (answers, t.untraced, g) := by
  refine play_map (f := untraced) (P := fun _ => True) (fun _ => rfl) ?_ ?_ trivial h requests
  · intro _ _ _ _
    trivial
  · intro s h request _
    exact serve_untraced s h request

theorem told_untraced (s : Scene) (h : σ) (requests : List (Request σ)) :
    s.untraced.told h requests = s.told h requests := by
  rw [told, play_untraced]
  rfl

/-- **Tracing does not disturb execution.** Let anything be asked of a scene, one thing after the
other, with any games: with tracing on and with tracing off it comes to the same. The reports,
results and visited instructions are the same, and so are the snapshots after every request; the
states, scratch records, log, frame number and everything else but the trace at the end; the state
of the game; and all that has passed between the scripts and the games. This is so because no run
looks at what has been recorded before: whatever it is, the run comes to the same end in the same
states, and records the same behind it. -/
theorem play_traced (s : Scene) (h : σ) (requests : List (Request σ)) :
    let traced := (s.withTracing true).play h requests
    let plain := (s.withTracing false).play h requests
    (traced.1 = plain.1 ∧ traced.2.2 = plain.2.2 ∧
      traced.2.1.states = plain.2.1.states ∧ traced.2.1.memory = plain.2.1.memory ∧
      traced.2.1.diagnostics = plain.2.1.diagnostics ∧ traced.2.1.frame = plain.2.1.frame ∧
      traced.2.1.snapshot = plain.2.1.snapshot ∧ traced.2.1.untraced = plain.2.1.untraced ∧
      (s.withTracing true).told h requests = (s.withTracing false).told h requests) ∧
    ∀ (cx : RunContext σ) (r : Run σ) (record : Array Nat),
      let alone := Run.start cx { r with visited := #[] }
      Run.start cx { r with visited := record } =
        (alone.1, { alone.2 with visited := record ++ alone.2.visited }) := by
  intro traced plain
  have htraced : s.untraced.play h requests = (traced.1, traced.2.1.untraced, traced.2.2) :=
    play_untraced (s.withTracing true) h requests
  have hplain : s.untraced.play h requests = (plain.1, plain.2.1.untraced, plain.2.2) :=
    play_untraced (s.withTracing false) h requests
  rw [htraced, Prod.mk.injEq, Prod.mk.injEq] at hplain
  obtain ⟨hanswers, hscene, hgame⟩ := hplain
  have hstates := congrArg states hscene
  have hmemory := congrArg memory hscene
  have hdiagnostics := congrArg diagnostics hscene
  have hframe := congrArg frame hscene
  have hsnapshot := congrArg snapshot hscene
  have htold := told_untraced (s.withTracing true) h requests
  have htold' := told_untraced (s.withTracing false) h requests
  refine ⟨⟨hanswers, hgame, hstates, hmemory, hdiagnostics, hframe, hsnapshot, hscene,
    htold.symm.trans htold'⟩, ?_⟩
  intro cx r record
  have honto := Run.start_onto cx record { r with visited := #[] }
  rwa [Run.onto, Array.append_empty] at honto

end Scene

/-! ### Traces and reports -/

/-- How many instructions a trace lists. -/
def Trace.length (t : Trace) : Nat := (t.visits.map fun v => v.offsets.length).sum

/-- How many of them are those of some scripts. -/
def Trace.lengthOf (t : Trace) (p : ScriptId → Bool) : Nat :=
  ((t.visits.filter fun v => p v.script).map fun v => v.offsets.length).sum

/-- A trace lists nothing for some scripts exactly if it has no visit of any of them. -/
theorem Trace.lengthOf_eq_zero_iff {t : Trace} (hvisits : ∀ v ∈ t.visits, v.offsets ≠ [])
    (p : ScriptId → Bool) : t.lengthOf p = 0 ↔ ∀ v ∈ t.visits, p v.script = false := by
  rw [lengthOf, List.sum_eq_zero_iff_forall_eq_nat, List.forall_mem_map]
  constructor
  · intro hzero v hv
    by_contra hp
    have hlisted := hzero v (List.mem_filter.mpr ⟨hv, Bool.of_not_eq_false hp⟩)
    exact hvisits v hv (List.length_eq_zero_iff.mp hlisted)
  · intro hnone v hv
    obtain ⟨hmem, hp⟩ := List.mem_filter.mp hv
    rw [hnone v hmem] at hp
    cases hp

def FrameReport.faulted (report : FrameReport) (id : ScriptId) : Bool :=
  decide (id ∈ report.faults.map Prod.fst)

theorem ScriptId.Before.ne {a b : ScriptId} (h : a.Before b) : a ≠ b := by
  rintro rfl
  rcases h with hlt | ⟨-, hlife, hmove⟩
  · exact Nat.lt_irrefl _ hlt
  · rw [hlife] at hmove
    cases hmove

namespace Turn

variable {σ : Type}

/-- What a turn executes is counted, unless the turn ends in a fault. -/
theorem length_visited_eq (t : Turn σ) :
    t.outcome.visited.length = t.steps + if t.fault?.isSome then t.outcome.visited.length else 0 := by
  unfold steps fault?
  cases hresult : t.outcome.result with
  | ok n =>
      have hlength : t.outcome.visited.length = n := Scene.length_visited hresult
      simp [hlength]
  | error fault => simp

theorem sum_visits (turns : List (Turn σ)) (p : ScriptId → Bool) :
    (((turns.filterMap visit?).filter fun v => p v.script).map fun v => v.offsets.length).sum =
      (turns.map fun t => if p t.script then t.outcome.visited.length else 0).sum := by
  induction turns with
  | nil => rfl
  | cons t turns ih =>
      rw [List.map_cons, List.sum_cons, ← ih]
      cases hvisit : t.visit? with
      | none =>
          have hnone : t.outcome.visited = [] := by
            by_contra hvisited
            obtain ⟨v, hv⟩ := exists_visit?_iff.mpr hvisited
            rw [hvisit] at hv
            cases hv
          rw [List.filterMap_cons_none hvisit, hnone]
          simp
      | some v =>
          obtain ⟨hscript, hoffsets, -⟩ := visit?_eq_some hvisit
          rw [List.filterMap_cons_some hvisit, List.filter_cons, hscript, ← hoffsets]
          split <;> simp

end Turn

namespace Scene

variable {σ : Type} {s : Scene}

/-- A script of a frame is reported as stopped by a fault exactly if its turn has ended in one. -/
theorem faulted_runFrame {host : Host σ} {h : σ} {time : FrameTime} {turn : Turn σ}
    (hturn : turn ∈ s.frameTurns host h time) :
    (s.runFrame host h time).1.faulted turn.script = turn.fault?.isSome := by
  have hdistinct : ((s.frameTurns host h time).map Turn.script).Nodup :=
    (s.pairwise_frameTurns host h time).imp ScriptId.Before.ne
  have hfaults : (s.runFrame host h time).1.faults =
      (s.frameTurns host h time).filterMap Turn.fault? :=
    congrArg (fun r => r.1.faults) (s.runFrame_eq host h time)
  rw [Bool.eq_iff_iff, FrameReport.faulted, decide_eq_true_iff, Option.isSome_iff_exists, hfaults]
  constructor
  · intro hid
    obtain ⟨⟨id, fault⟩, hmem, hid⟩ := List.mem_map.mp hid
    obtain ⟨other, hother, hfault⟩ := List.mem_filterMap.mp hmem
    have hscript : other.script = turn.script := (Turn.fault?_eq_some_iff.mp hfault).1.trans hid
    -- No other turn is one of the same script.
    obtain rfl := List.inj_on_of_nodup_map hdistinct hother hturn hscript
    exact ⟨_, hfault⟩
  · rintro ⟨⟨id, fault⟩, hfault⟩
    have hscript := (Turn.fault?_eq_some_iff.mp hfault).1
    rw [hscript]
    exact List.mem_map.mpr ⟨_, List.mem_filterMap.mpr ⟨turn, hturn, hfault⟩, rfl⟩

/-- A run that ends in a fault of an instruction has executed that instruction. -/
theorem visited_ne_nil_of_label {host : Host σ} {h : σ} {id : ScriptId} {time : FrameTime}
    {fault : Fault} (hfault : (s.runScript host h id time).result = .error fault)
    (hlabel : fault.label?.isSome = true) : (s.runScript host h id time).visited ≠ [] := by
  cases hp : s.program? id with
  | none =>
      simp only [runScript, hp] at hfault
      cases hfault
      cases hlabel
  | some program =>
      cases hr : (scriptAt s.states id).reentry with
      | none =>
          rw [(runScript_of_terminated hp hr host h time).1] at hfault
          cases hfault
      | some start =>
          obtain ⟨n, r, result, last, -, hstops, hresult, hvisited, -⟩ :=
            runScript_stops hp hr host h time
          rw [hfault] at hresult
          rw [hvisited]
          cases result with
          | ok u => cases hresult
          | error f =>
              cases hresult
              generalize ho : ((Except.error fault : Except Fault Unit), last) = o at hstops
              cases hstops with
              | ended => cases ho
              | overrun | exhausted =>
                  cases ho
                  cases hlabel
              | @fault offset i f after hat hstep =>
                  cases ho
                  have hpush := Run.visited_step (s.context host id program time) offset i r
                  rw [hstep] at hpush
                  rw [show last.visited = _ from hpush]
                  simp

/-- What the turns of the next frame execute. -/
def frameTrace (s : Scene) (host : Host σ) (h : σ) (time : FrameTime) : Trace :=
  ⟨s.frame + 1, (s.frameTurns host h time).filterMap Turn.visit?⟩

theorem trace_eq_frameTrace (htrace : s.config.trace = true) (host : Host σ) (h : σ)
    (time : FrameTime) :
    (s.runFrame host h time).2.1.trace = some (s.frameTrace host h time) := by
  rw [runFrame_eq]
  exact if_pos htrace

theorem offsets_ne_nil_of_mem_frameTrace {host : Host σ} {h : σ} {time : FrameTime} {v : Visit}
    (hv : v ∈ (s.frameTrace host h time).visits) : v.offsets ≠ [] := by
  obtain ⟨turn, -, hvisit⟩ := List.mem_filterMap.mp hv
  obtain ⟨-, hoffsets, hvisited⟩ := Turn.visit?_eq_some hvisit
  rwa [hoffsets]

/-- The instructions of a trace are those counted as steps and those of the scripts that faulted. -/
theorem length_frameTrace (s : Scene) (host : Host σ) (h : σ) (time : FrameTime) :
    (s.frameTrace host h time).length = (s.runFrame host h time).1.steps +
      (s.frameTrace host h time).lengthOf (s.runFrame host h time).1.faulted := by
  have hall := Turn.sum_visits (s.frameTurns host h time) fun _ => true
  have hlost := Turn.sum_visits (s.frameTurns host h time) (s.runFrame host h time).1.faulted
  have hsteps : (s.runFrame host h time).1.steps =
      ((s.frameTurns host h time).map Turn.steps).sum :=
    congrArg (fun r => r.1.steps) (s.runFrame_eq host h time)
  simp only [List.filter_true, if_true] at hall
  rw [Trace.length, Trace.lengthOf, frameTrace, hall, hlost, hsteps, ← List.sum_map_add]
  congr 1
  apply List.map_congr_left
  intro turn hturn
  rw [faulted_runFrame hturn]
  exact turn.length_visited_eq

/-- A script that is stopped by a fault of an instruction is in the trace. -/
theorem exists_visit_of_label {host : Host σ} {h : σ} {time : FrameTime} {id : ScriptId}
    {fault : Fault} (hmem : (id, fault) ∈ (s.runFrame host h time).1.faults)
    (hlabel : fault.label?.isSome = true) :
    ∃ v ∈ (s.frameTrace host h time).visits, (s.runFrame host h time).1.faulted v.script = true := by
  obtain ⟨turn, hturn, rfl, hfault⟩ := ((s.faults_runFrame host h time).2 id fault).mp hmem
  obtain ⟨v, hvisit⟩ := Turn.exists_visit?_iff.mpr (visited_ne_nil_of_label hfault hlabel)
  refine ⟨v, List.mem_filterMap.mpr ⟨turn, hturn, hvisit⟩, ?_⟩
  rw [(Turn.visit?_eq_some hvisit).1, faulted_runFrame hturn,
    Turn.fault?_eq_some_iff.mpr ⟨rfl, hfault⟩]
  rfl

/-- **A report counts the steps of the scripts that did not fault.** In a frame with tracing on, the
trace lists as many instructions as the report counts, and those of the scripts that were stopped by
a fault besides. So the two numbers are the same exactly if no script of the trace was stopped by a
fault; whenever an instruction faults, the report counts too few. -/
theorem runFrame_steps (htrace : s.config.trace = true) (host : Host σ) (h : σ) (time : FrameTime) :
    let report := (s.runFrame host h time).1
    ∃ trace, (s.runFrame host h time).2.1.trace = some trace ∧
      trace.length = report.steps + trace.lengthOf report.faulted ∧
      (report.steps = trace.length ↔ ∀ visit ∈ trace.visits, report.faulted visit.script = false) ∧
      ∀ f ∈ report.faults, f.2.label?.isSome = true → report.steps < trace.length := by
  intro report
  have hlength : (s.frameTrace host h time).length =
      report.steps + (s.frameTrace host h time).lengthOf report.faulted :=
    s.length_frameTrace host h time
  have hnone := Trace.lengthOf_eq_zero_iff
    (fun v (hv : v ∈ (s.frameTrace host h time).visits) => offsets_ne_nil_of_mem_frameTrace hv)
    report.faulted
  refine ⟨s.frameTrace host h time, trace_eq_frameTrace htrace host h time, hlength, ?_, ?_⟩
  · rw [← hnone, hlength]
    omega
  · rintro ⟨id, fault⟩ hmem hlabel
    obtain ⟨v, hv, hfaulted⟩ := exists_visit_of_label hmem hlabel
    have hlost : (s.frameTrace host h time).lengthOf report.faulted ≠ 0 := by
      intro hzero
      rw [hnone.mp hzero v hv] at hfaulted
      cases hfaulted
    omega

/-- The game sends the move script past the end of its program while the life script runs. The life
script goes on to its end, and its three instructions are the trace; the move script faults before it
has executed anything, so that report and trace agree. -/
theorem runFrame_steps_astray :
    let source : SceneSource := { actors := [{ life := [0x0A, 3, 0x00], moves := [0x09, 7, 0x0B] }] }
    let host : Host Unit :=
      ⟨fun call h => (⟨.ok .advance,
          call.actor.modify .move fun moves => { moves with reentry := some 9 }, none⟩, h),
        fun _ h => (.ok 0, h)⟩
    let s := ofCompiled (compileScene .standard source) { trace := true }
    let report := (s.runFrame host () {}).1
    report.faults = [(.move 0, .overrun 9 2)] ∧
      ∃ trace, (s.runFrame host () {}).2.1.trace = some trace ∧
        trace.visits = [⟨.life 0, some 0, [0, 1, 2]⟩] ∧
        report.steps = trace.length ∧ trace.length = 3 := by
  intro source host s report
  obtain ⟨trace, htrace, -, hagree, -⟩ := runFrame_steps (s := s) rfl host () {}
  have hmap : (some trace).map Trace.visits = some [⟨.life 0, some 0, [0, 1, 2]⟩] := by
    rw [← htrace]
    decide +kernel
  have hvisits : trace.visits = [⟨.life 0, some 0, [0, 1, 2]⟩] := Option.some.inj hmap
  have hfaults : report.faults = [(.move 0, .overrun 9 2)] := by decide +kernel
  refine ⟨hfaults, trace, htrace, hvisits, hagree.mpr ?_, ?_⟩
  · intro visit hvisit
    rw [hvisits] at hvisit
    obtain rfl := List.mem_singleton.mp hvisit
    rw [FrameReport.faulted, hfaults]
    rfl
  · rw [Trace.length, hvisits]
    rfl

/-- A move script declares a track and runs off its program: its one instruction is in the trace, and
the report counts none. -/
theorem runFrame_steps_overrun :
    let source : SceneSource := { actors := [{ moves := [0x09, 7] }] }
    let s := ofCompiled (compileScene .standard source) { trace := true }
    let report := (s.runFrame .quiet () {}).1
    report.steps = 0 ∧ report.faults = [(.move 0, .overrun 1 1)] ∧
      ∃ trace, (s.runFrame .quiet () {}).2.1.trace = some trace ∧ trace.length = 1 ∧
        report.steps ≠ trace.length := by
  intro source s report
  have htrace : (s.runFrame .quiet () {}).2.1.trace = some ⟨1, [⟨.move 0, some 7, [0]⟩]⟩ := by
    decide +kernel
  have hsteps : report.steps = 0 := by decide +kernel
  refine ⟨hsteps, by decide +kernel, _, htrace, rfl, ?_⟩
  rw [hsteps]
  decide

end Scene

end SceneScript
