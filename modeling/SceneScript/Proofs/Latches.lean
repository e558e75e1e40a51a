import SceneScript.Proofs.Executions

/-! # Latched conditionals

Two conditionals fall through at the right executions only: one where its test passes and did not the
time before, the other the first time that its test passes. Each keeps a flag in its scratch record.

* `Operation.heldBy`, `Operation.heldAfter`: what the flag is, and what it stands for.
* `Instruction.Fires`: one execution, and the flag that it leaves.
* `Scene.falls_through_iff`: the executions of a latched conditional over a history. -/

namespace SceneScript

/-! ### The flag -/

/-- The conditional falls through by its flag. -/
def Operation.latches : Operation → Bool
  | .swif | .oneIf => true
  | _ => false

/-- The flag of a latched conditional holds it back. -/
def Operation.heldBy (o : Operation) (c : CallState) : Bool :=
  match o with
  | .swif => c.latch
  | .oneIf => c.used
  | _ => false

/-- The executions of a latched conditional so far hold it back: its test passed the time before, or
at any time. -/
def Operation.heldAfter (o : Operation) (es : List Execution) : Bool :=
  match o with
  | .swif => es.getLast?.any fun e => e.passed == some true
  | .oneIf => es.any fun e => e.passed == some true
  | _ => false

/-! ### One execution -/

/-- An execution of a latched conditional that its flag holds back or not: it goes on if its test
passes and it is not held back, jumps otherwise, and sets the flag. -/
structure Instruction.Fires (i : Instruction) (target : Nat) (held : Bool) (e : Execution)
    (passed : Bool) : Prop where
  tested : e.passed = some passed
  flow : e.flow = Step.branch (!(passed && !held)) target
  flag : i.operation.heldBy e.record = (passed || (i.operation == .oneIf && held))

namespace Step

variable {σ : Type} {host : Host σ} {site : Site} {i : Instruction} {t : Nat}

/-- The shape that the latched conditionals share: their test, then the flag. -/
theorem fires_of_shape (held : CallState → Bool) (keep : Bool → CallState → CallState)
    (hasks : i.operation.asksCondition = true) (hcompares : i.operation.compares = true)
    (ht : i.targetAt 0 = .ok t) (hneeds : i.opcode.needsCallState = true)
    (hshape : execute host site i = do
      let dest ← demand i (i.targetAt 0)
      let passed ← test host site i
      let s ← callState i
      setCallState (keep passed s)
      return branch (!(passed && !held s)) dest)
    {w : World σ} {e : Execution} (he : i.execution? host site w = some e) :
    ∃ passed, e.passed = some passed ∧
      e.flow = branch (!(passed && !held w.callState)) t ∧ e.record = keep passed w.callState := by
  have htarget : (demand i (i.targetAt 0)).run w = (.ok t, w) := by
    rw [ht]
    rfl
  have htest : (test host site i).Ends w fun _ after => after.callState = w.callState :=
    (Reads.test hasks hcompares w.host).imp fun _ _ h => h.2.1
  have hexecute : (execute host site i).Ends w fun r after => ∀ flow, r = .ok flow →
      ∃ passed, passed? host site i w = some passed ∧
        flow = branch (!(passed && !held w.callState)) t ∧
        after.callState = keep passed w.callState := by
    rw [hshape, Exec.ends_bind]
    unfold Exec.Ends at htest
    unfold passed?
    rw [Exec.Ends, htarget]
    dsimp only
    rw [Exec.ends_bind, Exec.Ends]
    rcases hx : (test host site i).run w with ⟨fault | passed, after⟩
    · rintro flow ⟨⟩
    · rw [hx] at htest
      have hrecord : (callState i).run after = (.ok w.callState, after) := by
        unfold callState
        rw [if_pos hneeds, ← htest]
        rfl
      dsimp only
      rw [Exec.Ends, Exec.run_bind hrecord]
      rintro flow ⟨⟩
      exact ⟨passed, rfl, rfl, rfl⟩
  unfold Instruction.execution? at he
  unfold Exec.Ends at hexecute
  rcases hx : (execute host site i).run w with ⟨fault | flow, after⟩
  · rw [hx] at he
    cases he
  · rw [hx] at he hexecute
    cases he
    exact hexecute flow rfl

/-- **One execution** of a latched conditional. -/
theorem fires_of_latches (hop : i.operation.latches = true) (ht : i.targetAt 0 = .ok t)
    (hneeds : i.opcode.needsCallState = true) {w : World σ} {e : Execution}
    (he : i.execution? host site w = some e) :
    ∃ passed, i.Fires t (i.operation.heldBy w.callState) e passed := by
  cases h : i.operation with
  | swif =>
      have hshape : execute host site i = risingEdge host site i := by
        unfold execute
        rw [h]
      obtain ⟨passed, htested, hflow, hrecord⟩ := fires_of_shape CallState.latch
        (fun passed s => { s with latch := passed }) (by rw [h]; rfl) (by rw [h]; rfl) ht hneeds
        hshape he
      refine ⟨passed, htested, hflow, ?_⟩
      rw [h, hrecord]
      simp [Operation.heldBy]
  | oneIf =>
      have hshape : execute host site i = onlyOnce host site i := by
        unfold execute
        rw [h]
      obtain ⟨passed, htested, hflow, hrecord⟩ := fires_of_shape CallState.used
        (fun passed s => { s with used := s.used || passed }) (by rw [h]; rfl) (by rw [h]; rfl) ht
        hneeds hshape he
      refine ⟨passed, htested, hflow, ?_⟩
      rw [h, hrecord]
      simp [Operation.heldBy, Bool.or_comm]
  | _ => rw [h] at hop; cases hop

end Step

/-! ### All executions -/

theorem Operation.heldBy_empty (o : Operation) : o.heldBy {} = o.heldAfter [] := by
  cases o <;> rfl

theorem Operation.heldAfter_concat {o : Operation} (hop : o.latches = true) (es : List Execution)
    {e : Execution} {passed : Bool} (he : e.passed = some passed) :
    o.heldAfter (es ++ [e]) = (passed || (o == .oneIf && o.heldAfter es)) := by
  cases o with
  | swif => simp [heldAfter, he]
  | oneIf => simp [heldAfter, he, Bool.or_comm]
  | _ => cases hop

/-- An execution of a latched conditional, by the executions before it. -/
def Instruction.FiresAfter (i : Instruction) (target : Nat) (before : List Execution)
    (e : Execution) : Prop :=
  ∃ passed, i.Fires target (i.operation.heldAfter before) e passed

theorem Instruction.tells_of_latches {i : Instruction} {t : Nat}
    (hop : i.operation.latches = true) (ht : i.targetAt 0 = .ok t)
    (hneeds : i.opcode.needsCallState = true) :
    i.Tells (i.FiresAfter t) fun es c => i.operation.heldBy c = i.operation.heldAfter es := by
  refine ⟨?_, hneeds, ?_⟩
  · cases h : i.operation with
    | swif | oneIf => rfl
    | _ => rw [h] at hop; cases hop
  · intro σ host site w es e hflag he
    obtain ⟨passed, hfires⟩ := Step.fires_of_latches hop ht hneeds he
    rw [hflag] at hfires
    refine ⟨⟨passed, hfires⟩, ?_⟩
    rw [hfires.flag, Operation.heldAfter_concat hop es hfires.tested]

/-- A latched conditional is held back by the executions before, each of which tested its condition,
unless the last of them failed its test, or all of them did. -/
theorem Operation.heldAfter_eq_false_iff {es : List Execution}
    (htested : ∀ e ∈ es, ∃ passed, e.passed = some passed) :
    (Operation.heldAfter .swif es = false ↔
      ∀ last, es.getLast? = some last → last.passed = some false) ∧
    (Operation.heldAfter .oneIf es = false ↔ ∀ e ∈ es, e.passed = some false) := by
  have hfailed : ∀ e ∈ es, (e.passed == some true) = false ↔ e.passed = some false := by
    intro e he
    obtain ⟨passed, hpassed⟩ := htested e he
    cases passed <;> simp [hpassed]
  constructor
  · cases hlast : es.getLast? with
    | none => simp [heldAfter, hlast]
    | some last => simp [heldAfter, hlast, ← hfailed last (List.mem_of_getLast? hlast)]
  · rw [heldAfter, List.any_eq_false]
    refine forall₂_congr fun e he => ?_
    rw [← hfailed e he, Bool.not_eq_true]

/-- **Latched conditionals fall through at the right executions.** Take the executions that did not
fault of a latched conditional with a resolved target, over a history of a compiled scene in which no
snapshot is restored. Each of them tests the condition, and goes on or jumps to the target. The one
conditional goes on exactly when the test passes and did not at the execution before, if there is one;
the other, exactly when the test passes and did at no execution before. -/
theorem Scene.falls_through_iff {σ : Type} (source : SceneSource) (config : Config) (g : σ)
    {requests : List (Request σ)} (hrequests : ∀ x, .restore x ∉ requests) {id : ScriptId}
    {k t : Nat} {p : Program} {i : Instruction}
    (hp : (ofCompiled (compileScene .standard source) config).program? id = some p)
    (hi : p.instructions[k]? = some i) (hop : i.operation = .swif ∨ i.operation = .oneIf)
    (ht : i.targetAt 0 = .ok t) {before after : List Execution} {e : Execution}
    (hsplit : (ofCompiled (compileScene .standard source) config).executions g requests id k =
      before ++ e :: after) :
    ∃ passed, e.passed = some passed ∧ (e.flow = .advance ∨ e.flow = .jump t) ∧
      (i.operation = .swif → (e.flow = .advance ↔
        passed = true ∧ ∀ last, before.getLast? = some last → last.passed = some false)) ∧
      (i.operation = .oneIf → (e.flow = .advance ↔
        passed = true ∧ ∀ x ∈ before, x.passed = some false)) := by
  have hlatches : i.operation.latches = true := by
    rcases hop with hop | hop <;> rw [hop] <;> rfl
  have hplays := plays_ofCompiled source config
  have hneeds : i.opcode.needsCallState = true := by
    refine (hplays.sound hp hi).record ?_
    rcases hop with hop | hop <;> rw [hop] <;> rfl
  have htells := Instruction.tells_of_latches hlatches ht hneeds
  have hexecuted := hplays.not_skipped hp hi htells.engine config.headless
  have hfollows := follows_executions htells i.operation.heldBy_empty hp hi hexecuted g hrequests
  obtain ⟨passed, htested, hflow, -⟩ := hfollows before e after hsplit
  have hbefore : ∀ x ∈ before, ∃ passed, x.passed = some passed := by
    intro x hx
    have hmem : x ∈ before ++ e :: after := List.mem_append_left _ hx
    rw [← hsplit] at hmem
    obtain ⟨earlier, passed, hfires⟩ := hfollows.of_mem hmem
    exact ⟨passed, hfires.tested⟩
  obtain ⟨hlast, hall⟩ := Operation.heldAfter_eq_false_iff hbefore
  have hadvance : e.flow = .advance ↔ passed = true ∧ i.operation.heldAfter before = false := by
    rw [hflow, Step.branch]
    cases passed <;> cases i.operation.heldAfter before <;> simp
  refine ⟨passed, htested, ?_, ?_, ?_⟩
  · rw [hflow, Step.branch]
    split
    · exact .inr rfl
    · exact .inl rfl
  · intro hswif
    rw [hadvance, hswif, hlast]
  · intro honeIf
    rw [hadvance, honeIf, hall]

/-- The game that gives prepared answers, one after the other. -/
def Host.prepared : Host (List Int) where
  execute call answers := (⟨.ok .advance, call.actor, call.callState⟩, answers)
  evaluate _ answers := (.ok (answers.headD 0), answers.tail)

/-- A conditional that remembers the last test, executed in five of six frames: its actor is dead in
the other. The test passes the second time and again the third, and then the conditional jumps. -/
theorem Scene.falls_through_iff_third :
    let source : SceneSource := { actors := [{ life := [0x0D, 0x1B, 0, 1, 7, 0, 1, 0x23, 0] }] }
    let s := ofCompiled (compileScene .standard source) {}
    let frame : Request (List Int) := .frame .prepared {}
    let requests := [frame, frame, .kill 0, frame, .revive 0, frame, frame, frame]
    let es := s.executions [0, 1, 1, 0, 1] requests (.life 0) 1
    es.map (·.passed) = [some false, some true, some true, some false, some true] ∧
      ∃ h : 2 < es.length, es[2].flow ≠ .advance := by
  intro source s frame requests es
  obtain ⟨p, hp, i, hi, hop, ht⟩ : ∃ p ∈ s.program? (.life 0), ∃ i ∈ p.instructions[1]?,
      i.operation = .swif ∧ i.targetAt 0 = .ok 4 := by decide +kernel
  have hrequests : ∀ x, .restore x ∉ requests := by simp [requests, frame]
  have hlength : 2 < es.length := by decide +kernel
  have hsplit : es = es.take 2 ++ es[2] :: es.drop 3 := by
    rw [← List.drop_eq_getElem_cons hlength, List.take_append_drop]
  obtain ⟨passed, -, -, hswif, -⟩ :=
    falls_through_iff source {} _ hrequests hp hi (.inl hop) ht hsplit
  refine ⟨by decide +kernel, hlength, fun hadvance => ?_⟩
  obtain ⟨last, hlast, hpassed⟩ : ∃ last ∈ (es.take 2).getLast?, last.passed = some true := by
    decide +kernel
  have hfailed : last.passed = some false := ((hswif hop).mp hadvance).2 last hlast
  simp [hpassed] at hfailed

end SceneScript
