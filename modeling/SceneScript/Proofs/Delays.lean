import Mathlib.Data.List.Induction
import SceneScript.Proofs.Executions

/-! # Delays

A wait ends at the first execution whose time has reached its deadline, which the first of the
executions that it takes has set. Times need not grow, and nothing is asked of their arithmetic.

* `Execution.WaitsFor`: one execution of a wait, by the deadline that it meets.
* `Delays`: all of them, in rounds from a deadline that is set to the one that is reached.
* `Instruction.executionsOn`: executions in turn with nothing but the scratch record between them.
* `Instruction.delays_of_waits`: waits executed in turn, and over a history of a scene. -/

namespace SceneScript

/-! ### Rounds -/

/-- An execution of a wait of a length with the deadline `armed`, or none. -/
def Execution.WaitsFor (length : Binary64) (armed : Option Binary64) (e : Execution) : Prop :=
  let deadline := armed.getD (e.time.elapsed.add length)
  if e.time.elapsed.lt deadline then e.flow = .suspend ∧ e.record.deadline = some deadline
  else e.flow = .advance ∧ e.record.deadline = none

/-- The deadline that the executions so far have left. -/
def deadlineAfter (es : List Execution) : Option Binary64 := es.getLast?.bind (·.record.deadline)

/-- The executions of a wait of a length go in rounds. A round begins where there is no deadline, and its
first execution sets one: its time and the length. As long as no execution of the round has reached
it, each suspends and keeps it; the first that has reached it goes on and leaves none. -/
def Delays (length : Binary64) (es : List Execution) : Prop :=
  ∀ before round e after, es = before ++ round ++ e :: after →
    (∀ last, before.getLast? = some last → last.record.deadline = none) →
    let deadline := (round.headD e).time.elapsed.add length
    (∀ x ∈ round, x.time.elapsed.lt deadline = true) →
    if e.time.elapsed.lt deadline then e.flow = .suspend ∧ e.record.deadline = some deadline
    else e.flow = .advance ∧ e.record.deadline = none

/-- The first execution of a round sets the deadline, and those before it is reached keep it. -/
theorem Follows.deadline_of_round {length : Binary64} {before round : List Execution}
    (h : Follows (fun es e => e.WaitsFor length (deadlineAfter es)) (before ++ round))
    (hbefore : deadlineAfter before = none) (e : Execution) {deadline : Binary64}
    (hdeadline : (round.headD e).time.elapsed.add length = deadline)
    (hround : ∀ x ∈ round, x.time.elapsed.lt deadline = true) :
    (deadlineAfter (before ++ round)).getD (e.time.elapsed.add length) = deadline := by
  induction round using List.reverseRecOn generalizing e with
  | nil => simpa [hbefore] using hdeadline
  | append_singleton round x ih =>
      rw [← List.append_assoc] at h ⊢
      have hx : x.WaitsFor length (deadlineAfter (before ++ round)) := h _ x [] rfl
      have hhead : (round.headD x).time.elapsed.add length = deadline := by
        cases round <;> exact hdeadline
      have hmet : (deadlineAfter (before ++ round)).getD (x.time.elapsed.add length) = deadline :=
        ih h.of_append x hhead fun y hy => hround y (List.mem_append_left _ hy)
      rw [Execution.WaitsFor, hmet, if_pos (hround x (by simp))] at hx
      simp [deadlineAfter, hx.2]

/-- Executions that each meet the deadline which those before have left delay as they should. -/
theorem Follows.delays {length : Binary64} {es : List Execution}
    (h : Follows (fun es e => e.WaitsFor length (deadlineAfter es)) es) : Delays length es := by
  intro before round e after hsplit hbefore deadline hround
  have hnone : deadlineAfter before = none := by
    unfold deadlineAfter
    cases hlast : before.getLast? with
    | none => rfl
    | some last => exact hbefore last hlast
  have he : e.WaitsFor length (deadlineAfter (before ++ round)) := h _ e after hsplit
  subst hsplit
  have hmet := h.of_append.deadline_of_round hnone e rfl hround
  rwa [Execution.WaitsFor, hmet] at he

/-! ### One execution -/

theorem Instruction.execution?_of_waits {σ : Type} {i : Instruction} {c : Int}
    (hop : i.operation.waits = true) (hcount : i.numberAt 0 = .ok c)
    (hkeeps : i.opcode.needsCallState = true) (host : Host σ) (site : Site) (w : World σ) :
    ∃ e, i.execution? host site w = some e ∧ e.time = site.time ∧
      e.WaitsFor (Step.waitLength i c) w.callState.deadline := by
  unfold execution? Execution.WaitsFor
  rw [execute_wait host site hop hcount hkeeps w]
  cases hlt : site.time.elapsed.lt
    (w.callState.deadline.getD (site.time.elapsed.add (Step.waitLength i c))) with
  | true => exact ⟨_, rfl, rfl, by simp [hlt]⟩
  | false => exact ⟨_, rfl, rfl, by simp [hlt]⟩

theorem Instruction.tells_of_waits {i : Instruction} {c : Int} (hop : i.operation.waits = true)
    (hcount : i.numberAt 0 = .ok c) (hkeeps : i.opcode.needsCallState = true) :
    i.Tells (fun es e => e.WaitsFor (Step.waitLength i c) (deadlineAfter es))
      fun es record => record.deadline = deadlineAfter es := by
  refine ⟨?_, hkeeps, ?_⟩
  · cases h : i.operation with
    | waitSeconds | waitDeciseconds => rfl
    | _ => rw [h] at hop; cases hop
  · intro σ host site w es e hrecord he
    obtain ⟨x, hx, -, hwaits⟩ := execution?_of_waits hop hcount hkeeps host site w
    obtain rfl : x = e := Option.some.inj (hx.symm.trans he)
    rw [hrecord] at hwaits
    refine ⟨hwaits, ?_⟩
    simp [deadlineAfter]

/-! ### Executions in turn -/

/-- Where and when an instruction is executed. -/
structure Occasion (σ : Type) where
  host : Host σ
  site : Site
  states : Array ActorState
  game : σ

/-- The executions of an instruction on one occasion after the other, up to the first fault. Each
meets the record that the one before has left. -/
def Instruction.executionsOn {σ : Type} (i : Instruction) :
    (record : CallState) → (occasions : List (Occasion σ)) → List Execution
  | _, [] => []
  | record, o :: rest =>
    match i.execution? o.host o.site ⟨o.states, record, o.game⟩ with
    | some e => e :: i.executionsOn e.record rest
    | none => []

theorem Instruction.follows_executionsOn {σ : Type} {i : Instruction}
    {R : List Execution → Execution → Prop} {F : List Execution → CallState → Prop}
    (htells : i.Tells R F) (occasions : List (Occasion σ)) {es : List Execution}
    {record : CallState} (h : Told R F es record) :
    Follows R (es ++ i.executionsOn record occasions) := by
  induction occasions generalizing es record with
  | nil => simpa [executionsOn] using h.follows
  | cons o rest ih =>
      rw [executionsOn]
      split
      · next e he =>
          obtain ⟨hfollows, hrecord⟩ := htells.next o.host o.site _ es e h.record he
          rw [List.append_cons]
          exact ih (h.concat hfollows hrecord)
      · simpa using h.follows

theorem Instruction.times_executionsOn {σ : Type} {i : Instruction} {c : Int}
    (hop : i.operation.waits = true) (hcount : i.numberAt 0 = .ok c)
    (hkeeps : i.opcode.needsCallState = true) (record : CallState)
    (occasions : List (Occasion σ)) :
    (i.executionsOn record occasions).map (·.time) = occasions.map (·.site.time) := by
  induction occasions generalizing record with
  | nil => rfl
  | cons o rest ih =>
      obtain ⟨e, he, htime, -⟩ :=
        execution?_of_waits hop hcount hkeeps o.host o.site ⟨o.states, record, o.game⟩
      simp [executionsOn, he, htime, ih]

/-! ### Scenes -/

/-- **A wait ends at the first execution whose time has reached its deadline.** Take a wait whose
first operand is a number, and whose opcode keeps a record. Executed in turn from a record without a
deadline, anywhere and at any times, it never faults, and delays for its length: that many seconds or
tenths of seconds. So it does in a scene, over every history in which no snapshot is restored. And
there an execution that suspends is the last of its turn, which executes nothing behind it, and the
script is to resume at the wait. -/
theorem Instruction.delays_of_waits {i : Instruction} {c : Int} (hop : i.operation.waits = true)
    (hcount : i.numberAt 0 = .ok c) (hkeeps : i.opcode.needsCallState = true) :
    let length : Binary64 :=
      if i.operation = .waitDeciseconds then (Binary64.ofInt c).mul .tenth else .ofInt c
    (∀ {σ : Type} (record : CallState) (occasions : List (Occasion σ)), record.deadline = none →
      (i.executionsOn record occasions).map (·.time) = occasions.map (·.site.time) ∧
        Delays length (i.executionsOn record occasions)) ∧
    ∀ {σ : Type} (scene : CompiledScene) (config : Config) (g : σ) (requests : List (Request σ))
      (id : ScriptId) (p : Program) (k : Nat),
      let s := Scene.ofCompiled scene config
      s.program? id = some p → p.instructions[k]? = some i →
      (config.headless && i.opcode.skippedHeadless) = false →
      ((∀ x, .restore x ∉ requests) → Delays length (s.executions g requests id k)) ∧
        ∀ turn ∈ s.history g requests, ∀ e ∈ turn.executions id k, e.flow = .suspend →
          (turn.executions id k).getLast? = some e ∧
          turn.outcome.result = .ok turn.outcome.visited.length ∧
          turn.outcome.visited.getLast? = some k ∧
          (scriptAt turn.outcome.scene.states id).running = false ∧
          (scriptAt turn.outcome.scene.states id).reentry = some k := by
  intro length
  have htells := tells_of_waits hop hcount hkeeps
  refine ⟨?_, ?_⟩
  · intro σ record occasions hrecord
    have hfollows := follows_executionsOn htells occasions ⟨follows_nil _, hrecord⟩
    exact ⟨times_executionsOn hop hcount hkeeps record occasions, hfollows.delays⟩
  · intro σ scene config g requests id p k s hp hi hexecuted
    refine ⟨?_, ?_⟩
    · intro hrequests
      exact (Scene.follows_executions htells rfl hp hi hexecuted g hrequests).delays
    · intro turn hturn e he hflow
      have hcarries : turn.scene.Carries id k i :=
        (Scene.carries_ofCompiled hp hi hexecuted).of_blank (Scene.blank_of_mem_history hturn)
      exact (Turn.ends_of_suspend hcarries he hflow).2

/-- A wait for five seconds in a track that goes round: it is met at zero, three and five seconds, and
again when the clock was set back to four. It ends at five seconds, and then waits until nine. -/
theorem Instruction.delays_of_waits_round :
    let source : SceneSource :=
      { actors := [{ moves := [0x09, 3, 0x12, 5, 0, 0, 0, 0, 0x0A, 0, 0] }] }
    let s := Scene.ofCompiled (compileScene .standard source) {}
    let frame (seconds : Int) : Request Unit := .frame .quiet { elapsed := .ofInt seconds }
    let requests := [frame 0, frame 3, frame 5, frame 4]
    let es := s.executions () requests (.move 0) 1
    (es.take 3).map (·.record.deadline) = [some (.ofInt 5), some (.ofInt 5), none] ∧
      ∃ h : 3 < es.length, es[3].flow = .suspend ∧ es[3].record.deadline = some (.ofInt 9) := by
  intro source s frame requests es
  obtain ⟨p, hp, i, hi, hop, hcount, hkeeps, hexecuted⟩ : ∃ p ∈ s.program? (.move 0),
      ∃ i ∈ p.instructions[1]?, i.operation = .waitSeconds ∧ i.numberAt 0 = .ok 5 ∧
        i.opcode.needsCallState = true ∧ (s.config.headless && i.opcode.skippedHeadless) = false := by
    decide +kernel
  have hrequests : ∀ x, .restore x ∉ requests := by simp [requests, frame]
  have hlength : 3 < es.length := by decide +kernel
  have hsplit : es = es.take 3 ++ [] ++ es[3] :: es.drop 4 := by
    rw [List.append_nil, ← List.drop_eq_getElem_cons hlength, List.take_append_drop]
  have hbefore : ∀ last ∈ (es.take 3).getLast?, last.record.deadline = none := by decide +kernel
  have htimes : ∀ e ∈ es[3]?, e.time.elapsed = .ofInt 4 := by decide +kernel
  have htime : es[3].time.elapsed = .ofInt 4 := htimes _ (List.getElem?_eq_getElem hlength)
  have hnine : (Binary64.ofInt 4).add (.ofInt 5) = .ofInt 9 := by decide +kernel
  have hearly : (Binary64.ofInt 4).lt (.ofInt 9) = true := by decide +kernel
  obtain ⟨-, hscenes⟩ := delays_of_waits (by rw [hop]; rfl) hcount hkeeps
  obtain ⟨hdelays, -⟩ := hscenes _ {} () requests (.move 0) p 1 hp hi hexecuted
  have hfourth := hdelays hrequests (es.take 3) [] es[3] (es.drop 4) hsplit hbefore (by simp)
  simp only [List.headD_nil, htime, hop, reduceCtorEq, if_false, hnine, hearly, if_true] at hfourth
  exact ⟨by decide +kernel, hlength, hfourth⟩

end SceneScript
