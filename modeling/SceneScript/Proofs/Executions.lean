import SceneScript.Proofs.Atomicity
import SceneScript.Proofs.Inertia
import SceneScript.Proofs.Waits

/-! # The executions of an instruction

What a scratch record remembers is the past executions of its instruction, however many frames,
suspensions and other instructions lie between them.

* `Execution`: one execution that did not fault, with the outcome of its test, its flow and the record
  that it left.
* `Run.executions`, `Turn.executions`, `Scene.executions`: those of one instruction in a run, in a
  turn and in a history of a scene, in order.
* `Instruction.Tells`: how an execution follows from the record it meets, and the record from the
  executions so far. What one execution keeps, all keep: over a run (`Run.told_drive`), a turn
  (`Turn.told_outcome`) and a history (`Scene.told_play`).
* `Scene.follows_executions`: so it is over every history of a scene that was set up.
* `Turn.length_executions`: every visit in a turn is an execution, but for a last one that faults.
* `Turn.ends_of_suspend`: a turn ends with an execution that suspends. -/

namespace SceneScript

/-! ### One execution -/

/-- An execution of an instruction that did not fault: when it was, whether the condition passed its
test if there is one, where the script goes from there, and the scratch record it left. -/
structure Execution where
  time : FrameTime
  passed : Option Bool
  flow : Flow
  record : CallState

/-- The outcome of the test of an instruction in a world, if it comes to one. -/
def Step.passed? {σ : Type} (host : Host σ) (site : Site) (i : Instruction) (w : World σ) :
    Option Bool :=
  ((Step.test host site i).run w).1.toOption

def Instruction.execution? {σ : Type} (i : Instruction) (host : Host σ) (site : Site) (w : World σ) :
    Option Execution :=
  match (Step.execute host site i).run w with
  | (.ok flow, after) => some ⟨site.time, Step.passed? host site i w, flow, after.callState⟩
  | (.error _, _) => none

/-! ### Executions that follow from each other -/

/-- Every execution is one that those before it lead to. -/
def Follows (R : List Execution → Execution → Prop) (es : List Execution) : Prop :=
  ∀ before e after, es = before ++ e :: after → R before e

theorem follows_nil (R : List Execution → Execution → Prop) : Follows R [] := by
  intro before e after h
  simp at h

theorem Follows.of_append {R : List Execution → Execution → Prop} {es rest : List Execution}
    (h : Follows R (es ++ rest)) : Follows R es := by
  rintro before e after rfl
  exact h before e (after ++ rest) (by simp)

theorem Follows.of_mem {R : List Execution → Execution → Prop} {es : List Execution}
    (h : Follows R es) {e : Execution} (he : e ∈ es) : ∃ before, R before e := by
  obtain ⟨before, after, hsplit⟩ := List.append_of_mem he
  exact ⟨before, h before e after hsplit⟩

theorem Follows.concat {R : List Execution → Execution → Prop} {es : List Execution}
    (h : Follows R es) {e : Execution} (he : R es e) : Follows R (es ++ [e]) := by
  intro before x after hsplit
  rcases split_concat hsplit with ⟨rfl, rfl, rfl⟩ | ⟨w, -, hes⟩
  · exact he
  · exact h before x w hes

/-- The executions of an instruction so far follow from each other, and its scratch record tells what
is to be known of them. -/
structure Told (R : List Execution → Execution → Prop) (F : List Execution → CallState → Prop)
    (es : List Execution) (c : CallState) : Prop where
  follows : Follows R es
  record : F es c

/-- An execution that meets a record which tells of those before it follows from them, and leaves
such a record. The instruction is one of the engine that keeps a record. -/
structure Instruction.Tells (i : Instruction) (R : List Execution → Execution → Prop)
    (F : List Execution → CallState → Prop) : Prop where
  engine : i.operation.isHosted = false
  keeps : i.opcode.needsCallState = true
  next : ∀ {σ : Type} (host : Host σ) (site : Site) (w : World σ) (es : List Execution)
    (e : Execution), F es w.callState → i.execution? host site w = some e →
      R es e ∧ F (es ++ [e]) e.record

section
variable {R : List Execution → Execution → Prop} {F : List Execution → CallState → Prop}

theorem Told.concat {es : List Execution} {e : Execution} {c d : CallState} (h : Told R F es c)
    (he : R es e) (hd : F (es ++ [e]) d) : Told R F (es ++ [e]) d :=
  ⟨h.follows.concat he, hd⟩

/-! ### Runs -/

namespace Run

variable {σ : Type}

/-- The world in which an instruction of the running script is executed. -/
def world (cx : RunContext σ) (k : Nat) (r : Run σ) : World σ :=
  ⟨entered cx r, r.memory.callState k, r.host⟩

/-- The execution of instruction `k` in a run, unless it faults or is passed over. -/
def execution? (cx : RunContext σ) (k : Nat) (i : Instruction) (r : Run σ) : Option Execution :=
  if cx.headless && i.opcode.skippedHeadless then none
  else i.execution? cx.host ⟨cx.script, k, cx.time⟩ (world cx k r)

/-- The executions of instruction `k` in a run with `gas` instructions left, in order. -/
def executions (cx : RunContext σ) (k : Nat) : (gas : Nat) → Run σ → List Execution
  | 0, _ => []
  | gas + 1, r =>
    let offset := (r.script cx.script).offset
    if (r.script cx.script).running then
      match cx.program.instructions[offset]? with
      | none => []
      | some i =>
        match step cx offset i r with
        | (.error _, _) => []
        | (.ok (), s) =>
          (if offset = k then (execution? cx k i r).toList else []) ++ executions cx k gas s
    else []

variable {cx : RunContext σ} {k : Nat}

theorem at_or_rests (cx : RunContext σ) (k : Nat) (r : Run σ) :
    (∃ offset i, At cx r offset i) ∨
      ∀ gas, executions cx k gas r = [] ∧ (drive cx gas r).2 = r := by
  by_cases hat : ∃ offset i, At cx r offset i
  · exact .inl hat
  · have hsettles := (settles_or_at cx r).resolve_right hat
    refine .inr fun gas => ⟨?_, (hsettles gas).2⟩
    cases gas with
    | zero => rfl
    | succ gas =>
        rw [executions]
        split
        · next hrun =>
            cases hi : cx.program.instructions[(r.script cx.script).offset]? with
            | none => rfl
            | some i => exact absurd ⟨_, i, hrun, rfl, hi⟩ hat
        · rfl

theorem executions_succ_of_at {r : Run σ} {offset : Nat} {i : Instruction} (h : At cx r offset i)
    (gas : Nat) :
    executions cx k (gas + 1) r =
      match step cx offset i r with
      | (.error _, _) => []
      | (.ok (), s) =>
        (if offset = k then (execution? cx k i r).toList else []) ++ executions cx k gas s := by
  obtain ⟨hrun, rfl, hi⟩ := h
  rw [executions]
  simp only [hrun, if_true, hi]

theorem executions_of_ended {r : Run σ} (h : (r.script cx.script).running = false) (gas : Nat) :
    executions cx k gas r = [] := by
  cases gas with
  | zero => rfl
  | succ gas => simp [executions, h]

/-- A step of an instruction that is not passed over is an execution, whose flow moves the script on. -/
theorem execution?_of_step {i : Instruction} {r s : Run σ}
    (hskip : (cx.headless && i.opcode.skippedHeadless) = false)
    (hstep : step cx k i r = (.ok (), s)) :
    ∃ (e : Execution) (q : Run σ), execution? cx k i r = some e ∧
      s = q.modifyScript cx.script (e.flow.apply k) ∧
      q.memory = Run.record i k e.record r.memory ∧ q.visited = r.visited.push k ∧
      q.states.size = r.states.size := by
  have hacts : (Step.execute cx.host ⟨cx.script, k, cx.time⟩ i).Ends (world cx k r)
      (Acts cx.host ⟨cx.script, k, cx.time⟩ i (entered cx r) (r.memory.callState k)) :=
    Executes.execute r.host
  unfold Exec.Ends at hacts
  rcases hx : (Step.execute cx.host ⟨cx.script, k, cx.time⟩ i).run (world cx k r) with
    ⟨fault | flow, w⟩
  · have hp : perform cx k i (arrived cx k r) = _ := perform_of_execute hskip hx
    rw [step_of_perform_error hp] at hstep
    cases hstep
  · have hp : perform cx k i (arrived cx k r) = _ := perform_of_execute hskip hx
    rw [step_of_perform_ok hp] at hstep
    cases hstep
    rw [hx] at hacts
    refine ⟨⟨cx.time, Step.passed? cx.host ⟨cx.script, k, cx.time⟩ i (world cx k r), flow,
      w.callState⟩, ⟨w.states, Run.record i k w.callState r.memory, w.host, r.visited.push k⟩, ?_,
      rfl, rfl, rfl, ?_⟩
    · rw [execution?, hskip, Instruction.execution?, hx]
      rfl
    · change w.states.size = r.states.size
      rw [hacts.size, entered, size_modifyScript]

/-- A step that faults leaves the record of an instruction of the engine alone. -/
theorem callState_of_fault {i : Instruction} {r s : Run σ} {fault : Fault}
    (hskip : (cx.headless && i.opcode.skippedHeadless) = false)
    (hengine : i.operation.isHosted = false) (hkeeps : i.opcode.needsCallState = true)
    (hstep : step cx k i r = (.error fault, s)) :
    s.memory.callState k = r.memory.callState k := by
  rcases hx : (Step.execute cx.host ⟨cx.script, k, cx.time⟩ i).run (world cx k r) with
    ⟨f | flow, w⟩
  · have hp : perform cx k i (arrived cx k r) = _ := perform_of_execute hskip hx
    rw [step_of_perform_error hp] at hstep
    cases hstep
    exact (callState_record_self hkeeps k w.callState r.memory).trans
      (unchanged_of_execute_error hengine hx).2
  · have hp : perform cx k i (arrived cx k r) = _ := perform_of_execute hskip hx
    rw [step_of_perform_ok hp] at hstep
    cases hstep

/-- **What one execution keeps, a run keeps**, by induction on the instructions left: other
instructions and faults leave the record alone. -/
theorem told_drive {i : Instruction} (htells : i.Tells R F)
    (hi : cx.program.instructions[k]? = some i)
    (hskip : (cx.headless && i.opcode.skippedHeadless) = false) (gas : Nat) {r : Run σ}
    {es : List Execution} (h : Told R F es (r.memory.callState k)) :
    Told R F (es ++ executions cx k gas r) ((drive cx gas r).2.memory.callState k) := by
  induction gas generalizing r es with
  | zero =>
      rw [executions, List.append_nil]
      rcases at_or_rests cx k r with ⟨offset, j, hat⟩ | hrests
      · rwa [drive_zero_of_at hat]
      · rwa [(hrests 0).2]
  | succ gas ih =>
      rcases at_or_rests cx k r with ⟨offset, j, hat⟩ | hrests
      · rw [executions_succ_of_at hat, drive_succ_of_at hat]
        have hother : offset ≠ k → (step cx offset j r).2.memory.callState k =
            r.memory.callState k := fun hne => callState_step_of_ne cx j r hne.symm
        rcases hstep : step cx offset j r with ⟨fault | u, s⟩
        · rw [List.append_nil]
          by_cases hk : offset = k
          · subst hk
            obtain rfl : i = j := Option.some.inj (hi.symm.trans hat.2.2)
            rwa [callState_of_fault hskip htells.engine htells.keeps hstep]
          · rw [hstep] at hother
            rwa [hother hk]
        · by_cases hk : offset = k
          · subst hk
            obtain rfl : i = j := Option.some.inj (hi.symm.trans hat.2.2)
            obtain ⟨e, q, he, rfl, hmemory, -⟩ := execution?_of_step hskip hstep
            have hexec := he
            rw [execution?, hskip] at hexec
            obtain ⟨hfollows, hrecord⟩ := htells.next _ _ _ es e h.record hexec
            rw [if_pos rfl, he, Option.toList_some, ← List.append_assoc]
            refine ih (h.concat hfollows ?_)
            change F (es ++ [e]) (q.memory.callState offset)
            rwa [hmemory, callState_record_self htells.keeps]
          · rw [if_neg hk]
            refine ih ?_
            rw [hstep] at hother
            rwa [hother hk]
      · rw [(hrests _).1, List.append_nil, (hrests _).2]
        exact h

/-- **A run ends with an execution that suspends**: nothing is executed behind it, and the script is
to resume at the instruction. -/
theorem ended_of_suspend {i : Instruction} (hi : cx.program.instructions[k]? = some i)
    (hskip : (cx.headless && i.opcode.skippedHeadless) = false) {gas : Nat} {r : Run σ}
    {e : Execution} (hmem : e ∈ executions cx k gas r) (hflow : e.flow = .suspend) :
    (executions cx k gas r).getLast? = some e ∧ (drive cx gas r).1 = .ok () ∧
      (drive cx gas r).2.visited.back? = some k ∧
      ((drive cx gas r).2.script cx.script).running = false ∧
      ((drive cx gas r).2.script cx.script).reentry = some k := by
  induction gas generalizing r with
  | zero => simp [executions] at hmem
  | succ gas ih =>
      rcases at_or_rests cx k r with ⟨offset, j, hat⟩ | hrests
      · rw [executions_succ_of_at hat] at hmem ⊢
        rw [drive_succ_of_at hat]
        rcases hstep : step cx offset j r with ⟨fault | u, s⟩
        · simp [hstep] at hmem
        · simp only [hstep, List.mem_append] at hmem
          rcases hmem with hnow | hlater
          · have hk : offset = k := by
              by_contra hne
              simp [hne] at hnow
            subst hk
            obtain rfl : i = j := Option.some.inj (hi.symm.trans hat.2.2)
            obtain ⟨e', q, he, rfl, -, hvisited, hsize⟩ := execution?_of_step hskip hstep
            obtain rfl : e = e' := by simpa [he] using hnow
            have hlt : cx.script.actor < q.states.size := by
              rw [hsize]
              exact actor_lt_of_running hat.1
            have hscript : (q.modifyScript cx.script (e.flow.apply offset)).script cx.script =
                e.flow.apply offset (scriptAt q.states cx.script) := scriptAt_modifyScript_self hlt _
            rw [hflow] at hscript
            have hended : ((q.modifyScript cx.script (e.flow.apply offset)).script
                cx.script).running = false := by
              rw [hflow, hscript]
              rfl
            simp only [drive_of_ended hended]
            refine ⟨?_, trivial, ?_, hended, ?_⟩
            · rw [executions_of_ended hended, if_pos trivial, he]
              rfl
            · change q.visited.back? = some offset
              rw [hvisited, Array.back?_push]
            · rw [hflow, hscript]
              rfl
          · obtain ⟨hlast, hrest⟩ := ih hlater
            refine ⟨?_, hrest⟩
            simp [List.getLast?_append, hlast]
      · rw [(hrests (gas + 1)).1] at hmem
        cases hmem

/-- Every visit of an instruction in a run is an execution, but for a last one that faults. -/
theorem length_executions {i : Instruction} (hi : cx.program.instructions[k]? = some i)
    (hskip : (cx.headless && i.opcode.skippedHeadless) = false) (gas : Nat) (r : Run σ) :
    (drive cx gas r).2.visited.count k = r.visited.count k + (executions cx k gas r).length ∨
      (∃ fault, (drive cx gas r).1 = .error fault) ∧ (drive cx gas r).2.visited.back? = some k ∧
        (drive cx gas r).2.visited.count k =
          r.visited.count k + (executions cx k gas r).length + 1 := by
  induction gas generalizing r with
  | zero =>
      rcases at_or_rests cx k r with ⟨offset, j, hat⟩ | hrests
      · rw [drive_zero_of_at hat]
        exact .inl rfl
      · rw [(hrests 0).1, (hrests 0).2]
        exact .inl rfl
  | succ gas ih =>
      rcases at_or_rests cx k r with ⟨offset, j, hat⟩ | hrests
      · have hvisited := visited_step cx offset j r
        rw [executions_succ_of_at hat, drive_succ_of_at hat]
        rcases hstep : step cx offset j r with ⟨fault | u, s⟩
        · rw [hstep] at hvisited
          have hlast : s.visited = r.visited.push offset := hvisited
          by_cases hk : offset = k
          · subst hk
            exact .inr ⟨⟨fault, rfl⟩, by simp [hlast], by simp [hlast]⟩
          · exact .inl (by simp [hlast, hk])
        · rw [hstep] at hvisited
          have hone : s.visited.count k = r.visited.count k +
              (if offset = k then (execution? cx k j r).toList else []).length := by
            rw [show s.visited = r.visited.push offset from hvisited, Array.count_push]
            by_cases hk : offset = k
            · subst hk
              obtain rfl : i = j := Option.some.inj (hi.symm.trans hat.2.2)
              obtain ⟨e, -, he, -⟩ := execution?_of_step hskip hstep
              simp [he]
            · simp [hk]
          rcases ih s with hall | ⟨hfault, hback, hall⟩
          · left
            dsimp only
            rw [hall, hone, List.length_append, Nat.add_assoc]
          · refine .inr ⟨hfault, hback, ?_⟩
            dsimp only
            rw [hall, hone, List.length_append, Nat.add_assoc (r.visited.count k)]
      · rw [(hrests _).1, (hrests _).2]
        exact .inl rfl

end Run

/-! ### Turns -/

/-- Instruction `k` of a script of the scene is executed whenever a run comes to it, and has a
scratch record. -/
structure Scene.Carries (s : Scene) (id : ScriptId) (k : Nat) (i : Instruction) : Prop where
  placed : ∃ program, s.program? id = some program ∧ program.instructions[k]? = some i
  executed : (s.config.headless && i.opcode.skippedHeadless) = false
  room : id.actor < s.memory.size

/-- What no request changes is enough for that. -/
theorem Scene.Carries.of_blank {s t : Scene} {id : ScriptId} {k : Nat} {i : Instruction}
    (h : s.Carries id k i) (hblank : t.blank = s.blank) : t.Carries id k i := by
  have hconfig : t.config = s.config := show t.blank.config = s.blank.config by rw [hblank]
  have hmemory : t.blank.memory.size = s.blank.memory.size := by rw [hblank]
  rw [Scene.blank, Scene.blank, Array.size_replicate, Array.size_replicate] at hmemory
  refine ⟨?_, ?_, ?_⟩
  · obtain ⟨program, hp, hi⟩ := h.placed
    exact ⟨program, by rw [program?_of_blank hblank, hp], hi⟩
  · rw [hconfig]
    exact h.executed
  · rw [hmemory]
    exact h.room

theorem Scene.scratch_outcome_self {σ : Type} {s : Scene} {id : ScriptId}
    (h : id.actor < s.memory.size) (o : Except Fault Unit × Run σ) :
    (s.outcome id o).scene.scratch id = o.2.memory := by
  have hmemory : (s.outcome id o).scene.memory =
      s.memory.modify id.actor fun m => m.set id.kind o.2.memory := by
    rcases o with ⟨fault | u, r⟩ <;> rfl
  rw [scratch, hmemory, Array.getD_eq_getD_getElem?, Array.getElem?_modify, if_pos rfl,
    Array.getElem?_eq_getElem h]
  cases id.kind <;> rfl

namespace Turn

variable {σ : Type} {turn : Turn σ} {id : ScriptId} {k : Nat} {i : Instruction}

def executions (turn : Turn σ) (id : ScriptId) (k : Nat) : List Execution :=
  if turn.script = id then
    match turn.scene.program? id, (scriptAt turn.scene.states id).reentry with
    | some program, some start =>
      Run.executions (turn.scene.context turn.host id program turn.time) k
        turn.scene.config.gasLimit (turn.scene.started turn.game id start)
    | _, _ => []
  else []

theorem executions_of_ne (h : turn.script ≠ id) : turn.executions id k = [] := if_neg h

theorem rests_or_runs (hcarries : turn.scene.Carries id k i) (hscript : turn.script = id) :
    (turn.executions id k = [] ∧
      turn.outcome = turn.scene.outcome id (.ok (), turn.scene.ready turn.game id)) ∨
    ∃ program start, program.instructions[k]? = some i ∧
      let cx := turn.scene.context turn.host id program turn.time
      let r := turn.scene.started turn.game id start
      turn.executions id k = Run.executions cx k turn.scene.config.gasLimit r ∧
        turn.outcome = turn.scene.outcome id (Run.drive cx turn.scene.config.gasLimit r) := by
  obtain ⟨program, hp, hi⟩ := hcarries.placed
  subst hscript
  unfold executions outcome
  simp only [hp, if_true]
  cases hr : (scriptAt turn.scene.states turn.script).reentry with
  | none => exact .inl ⟨rfl, Scene.runScript_of_ended hp hr _ _ _⟩
  | some start => exact .inr ⟨program, start, hi, rfl, Scene.runScript_of_reentry hp hr _ _ _⟩

/-- **What one execution keeps, a turn keeps.** -/
theorem told_outcome (htells : i.Tells R F) (hcarries : turn.scene.Carries id k i)
    {es : List Execution} (h : Told R F es ((turn.scene.scratch id).callState k)) :
    Told R F (es ++ turn.executions id k) ((turn.outcome.scene.scratch id).callState k) := by
  by_cases hid : turn.script = id
  · rcases rests_or_runs hcarries hid with ⟨hnone, hrest⟩ | ⟨program, start, hi, hexecutions, hrun⟩
    · rw [hnone, hrest, Scene.scratch_outcome_self hcarries.room, List.append_nil]
      exact h
    · rw [hexecutions, hrun, Scene.scratch_outcome_self hcarries.room]
      exact Run.told_drive htells hi hcarries.executed _ h
  · rw [executions_of_ne hid, List.append_nil, outcome, Scene.scratch_runScript_of_ne (Ne.symm hid)]
    exact h

/-- Every visit of an instruction in a turn is an execution, but for a last one that faults. -/
theorem length_executions (hcarries : turn.scene.Carries id k i) (hscript : turn.script = id) :
    turn.outcome.visited.count k = (turn.executions id k).length ∨
      (∃ fault, turn.outcome.result = .error fault) ∧ turn.outcome.visited.getLast? = some k ∧
        turn.outcome.visited.count k = (turn.executions id k).length + 1 := by
  rcases rests_or_runs hcarries hscript with
    ⟨hnone, hrest⟩ | ⟨program, start, hi, hexecutions, hrun⟩
  · rw [hnone, hrest]
    exact .inl rfl
  · rw [hexecutions, hrun]
    have hlength := @Run.length_executions _ (turn.scene.context turn.host id program turn.time)
      k i hi hcarries.executed turn.scene.config.gasLimit (turn.scene.started turn.game id start)
    simpa [Scene.outcome_result_eq_error_iff, Scene.started] using hlength

/-- **A turn ends with an execution that suspends**: nothing is executed behind it, and the script is
to resume at the instruction. -/
theorem ends_of_suspend (hcarries : turn.scene.Carries id k i) {e : Execution}
    (hmem : e ∈ turn.executions id k) (hflow : e.flow = .suspend) :
    turn.script = id ∧ (turn.executions id k).getLast? = some e ∧
      turn.outcome.result = .ok turn.outcome.visited.length ∧
      turn.outcome.visited.getLast? = some k ∧
      (scriptAt turn.outcome.scene.states id).running = false ∧
      (scriptAt turn.outcome.scene.states id).reentry = some k := by
  have hid : turn.script = id := by
    by_contra hne
    rw [executions_of_ne hne] at hmem
    cases hmem
  rcases rests_or_runs hcarries hid with ⟨hnone, -⟩ | ⟨program, start, hi, hexecutions, hrun⟩
  · rw [hnone] at hmem
    cases hmem
  · rw [hexecutions] at hmem ⊢
    obtain ⟨hend, hok, hlast, hrunning, hreentry⟩ :=
      Run.ended_of_suspend hi hcarries.executed hmem hflow
    refine ⟨hid, hend, ?_⟩
    rw [hrun]
    generalize Run.drive _ _ _ = o at hok hlast hrunning hreentry
    obtain ⟨result, last⟩ := o
    obtain rfl : result = .ok () := hok
    refine ⟨?_, ?_, hrunning, hreentry⟩
    · simp [Scene.outcome]
    · simpa using hlast

end Turn

/-! ### Histories -/

namespace Scene

variable {σ : Type} {s : Scene} {id : ScriptId} {k : Nat} {i : Instruction}

def executions (s : Scene) (h : σ) (requests : List (Request σ)) (id : ScriptId) (k : Nat) :
    List Execution :=
  (s.history h requests).flatMap fun turn => turn.executions id k

theorem told_turns (htells : i.Tells R F) (hcarries : s.Carries id k i) (host : Host σ) (g : σ)
    (time : FrameTime) (ids : List ScriptId) {es : List Execution}
    (h : Told R F es ((s.scratch id).callState k)) :
    Told R F (es ++ (s.turns host g time ids).flatMap fun turn => turn.executions id k)
      (((s.afterTurns host g time ids).1.scratch id).callState k) := by
  induction ids generalizing s g es with
  | nil => simpa [turns, afterTurns] using h
  | cons script ids ih =>
      have hturn : Told R F (es ++ Turn.executions ⟨s, host, g, script, time⟩ id k) _ :=
        Turn.told_outcome htells hcarries h
      rw [turns, List.flatMap_cons, ← List.append_assoc]
      exact ih (hcarries.of_blank (blank_runScript s host g script time)) _ hturn

theorem scratch_attempt {change : Except Fault Scene}
    (hchange : ∀ {t}, change = .ok t → t.memory = s.memory) (g : σ) :
    (s.attempt g change).2.1.scratch id = s.scratch id := by
  cases change with
  | ok t =>
      change t.scratch id = s.scratch id
      rw [scratch, hchange rfl, scratch]
  | error fault => rfl

theorem memory_killActor {t : Scene} {a : Nat} (h : s.killActor a = .ok t) :
    t.memory = s.memory := by
  unfold killActor at h
  split at h <;> cases h
  rfl

theorem memory_reviveActor {t : Scene} {a : Nat} (h : s.reviveActor a = .ok t) :
    t.memory = s.memory := by
  unfold reviveActor at h
  split at h <;> cases h
  rfl

/-- What one execution keeps, a request keeps that is not to restore a snapshot. -/
theorem told_serve (htells : i.Tells R F) (hcarries : s.Carries id k i) (g : σ)
    {request : Request σ} (hrequest : ∀ x, request ≠ .restore x) {es : List Execution}
    (h : Told R F es ((s.scratch id).callState k)) :
    Told R F (es ++ (s.turnsOf g request).flatMap fun turn => turn.executions id k)
      (((s.serve g request).2.1.scratch id).callState k) := by
  cases request with
  | frame host time =>
      have hopened : s.opened.Carries id k i := ⟨hcarries.placed, hcarries.executed, hcarries.room⟩
      have hturns := told_turns htells hopened host g time s.scripts h
      change Told R F _ (((s.runFrame host g time).2.1.scratch id).callState k)
      rw [runFrame_eq]
      exact hturns
  | script host script time =>
      have hturn : Told R F (es ++ Turn.executions ⟨s, host, g, script, time⟩ id k) _ :=
        Turn.told_outcome htells hcarries h
      rw [turnsOf, List.flatMap_singleton]
      exact hturn
  | kill a =>
      rw [turnsOf, List.flatMap_nil, List.append_nil, serve, scratch_attempt memory_killActor]
      exact h
  | revive a =>
      rw [turnsOf, List.flatMap_nil, List.append_nil, serve, scratch_attempt memory_reviveActor]
      exact h
  | restore x => exact absurd rfl (hrequest x)

/-- **What one execution keeps, a history keeps** in which no snapshot is restored. -/
theorem told_play (htells : i.Tells R F) (hcarries : s.Carries id k i) (g : σ)
    {requests : List (Request σ)} (hrequests : ∀ x, .restore x ∉ requests) {es : List Execution}
    (h : Told R F es ((s.scratch id).callState k)) :
    Told R F (es ++ s.executions g requests id k)
      (((s.play g requests).2.1.scratch id).callState k) := by
  induction requests generalizing s g es with
  | nil => simpa [executions, history, play] using h
  | cons request rest ih =>
      have hfirst : ∀ x, request ≠ .restore x := by
        rintro x rfl
        exact hrequests x List.mem_cons_self
      have hserved := told_serve htells hcarries g hfirst h
      rw [executions, history, List.flatMap_append, ← List.append_assoc]
      exact ih (hcarries.of_blank (blank_serve s g request)) _
        (fun x hx => hrequests x (List.mem_cons_of_mem _ hx)) hserved

theorem blank_of_mem_history {g : σ} {requests : List (Request σ)} {turn : Turn σ}
    (h : turn ∈ s.history g requests) : turn.scene.blank = s.blank := by
  induction requests generalizing s g with
  | nil => cases h
  | cons request rest ih =>
      rw [history, List.mem_append] at h
      rcases h with hnow | hlater
      · cases request with
        | frame host time =>
            exact (turns_invariant (P := fun t => t.blank = s.blank)
              (fun f script ht => (blank_runScript _ host f script time).trans ht)
              (s := s.opened) rfl g s.scripts).1 turn hnow
        | script host script time =>
            rw [List.mem_singleton.mp hnow]
        | kill a | revive a | restore x => cases hnow
      · exact (ih hlater).trans (blank_serve s g request)

/-- Instructions of a scene that was set up have scratch records, and are executed unless they are
passed over. -/
theorem carries_ofCompiled {c : CompiledScene} {config : Config} {p : Program}
    (hp : (ofCompiled c config).program? id = some p) (hi : p.instructions[k]? = some i)
    (hexecuted : (config.headless && i.opcode.skippedHeadless) = false) :
    (ofCompiled c config).Carries id k i := by
  refine ⟨⟨p, hp, hi⟩, hexecuted, ?_⟩
  obtain ⟨programs, hprograms, -⟩ := Option.map_eq_some_iff.mp hp
  have hlt := (Array.getElem?_eq_some_iff.mp hprograms).1
  simpa [ofCompiled] using hlt

/-- Nothing has been executed in a scene that was set up: its records are untouched. -/
theorem callState_ofCompiled (c : CompiledScene) (config : Config) (id : ScriptId) (k : Nat) :
    ((ofCompiled c config).scratch id).callState k = {} := by
  rw [scratch, ofCompiled, Array.getD_eq_getD_getElem?, Array.getElem?_map]
  cases c.actors[id.actor]? <;> cases id.kind <;> rfl

/-- The executions of an instruction in a scene that was set up follow from each other, if they do by
its record: none comes before the first. -/
theorem follows_executions (htells : i.Tells R F) (hempty : F [] {}) {c : CompiledScene}
    {config : Config} {p : Program} (hp : (ofCompiled c config).program? id = some p)
    (hi : p.instructions[k]? = some i)
    (hexecuted : (config.headless && i.opcode.skippedHeadless) = false) (g : σ)
    {requests : List (Request σ)} (hrequests : ∀ x, .restore x ∉ requests) :
    Follows R ((ofCompiled c config).executions g requests id k) := by
  have hstart : Told R F [] (((ofCompiled c config).scratch id).callState k) := by
    rw [callState_ofCompiled]
    exact ⟨follows_nil R, hempty⟩
  exact (told_play htells (carries_ofCompiled hp hi hexecuted) g hrequests hstart).follows

end Scene

end

end SceneScript
