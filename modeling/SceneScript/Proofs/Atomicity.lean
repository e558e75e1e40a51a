import SceneScript.Proofs.Frames

/-! # Faults of the engine change nothing

An instruction of the engine checks all that it needs before it writes anything, so one that faults
leaves the states of all actors and its own scratch record as they were (`Acts.unchanged`). It may
have asked the game for the value of its condition.

In a run, the scheduler writes around the instruction: it takes the resume point away before, and ends
the script after a fault. `execute_error_unchanged` says what remains of both: after a run that an
instruction of the engine stopped, the states are those in which the instruction was fetched, with the
script ended. -/

namespace SceneScript

variable {σ : Type}

/-- What the engine executes and cannot finish changes no state and no scratch record. -/
theorem Acts.unchanged {host : Host σ} {site : Site} {i : Instruction} {states : Array ActorState}
    {c : CallState} {fault : Fault} {after : World σ}
    (h : Acts host site i states c (.error fault) after) (hop : i.operation.isHosted = false) :
    after.states = states ∧ after.callState = c := by
  generalize hresult : (Except.error fault : Except Fault Flow) = result at h
  cases h with
  | effect => cases hresult
  | fault _ hstates hrecord => exact ⟨hstates, hrecord⟩
  | hosted hhosted => exact absurd (hhosted.symm.trans hop) (by decide)

/-- A fault that an instruction of the engine raises leaves the world but for the game alone. -/
theorem unchanged_of_execute_error {host : Host σ} {site : Site} {i : Instruction}
    (hop : i.operation.isHosted = false) {w after : World σ} {fault : Fault}
    (h : (Step.execute host site i).run w = (.error fault, after)) :
    after.states = w.states ∧ after.callState = w.callState := by
  have hacts : (Step.execute host site i).Ends w (Acts host site i w.states w.callState) :=
    Executes.execute w.host
  unfold Exec.Ends at hacts
  rw [h] at hacts
  exact hacts.unchanged hop

theorem Run.states_of_fault {cx : RunContext σ} {offset : Nat} {i : Instruction} {r after : Run σ}
    {fault : Fault} (h : Run.step cx offset i r = (.error fault, after))
    (hop : i.operation.isHosted = false) : after.states = Run.entered cx r := by
  obtain ⟨c, result, w, hacts, hresult, hstates⟩ := Run.step_acts cx offset i r
  rw [h] at hresult hstates
  cases result with
  | ok flow => cases hresult
  | error f => rw [hstates, (hacts.unchanged hop).1]

namespace Scene

/-- **Faults of the engine are atomic.** An instruction that is not the game's and that cannot be
executed leaves all states and its scratch record as they were. If a run ends with a fault that names
an instruction, then the run came to this instruction last, and unless the instruction is the game's,
the states afterwards are those in which it was fetched, but that the script has ended. -/
theorem execute_error_unchanged :
    (∀ (host : Host σ) (site : Site) (i : Instruction) (w after : World σ) (fault : Fault),
      i.operation.isHosted = false → (Step.execute host site i).run w = (.error fault, after) →
      after.states = w.states ∧ after.callState = w.callState) ∧
    ∀ (s : Scene) (host : Host σ) (h : σ) (id : ScriptId) (time : FrameTime) (fault : Fault)
      (label : String),
      let o := s.runScript host h id time
      o.result = .error fault → fault.label? = some label →
      ∃ r offset i, s.ComesTo host h id time r offset i ∧ label = i.label ∧
        o.visited = r.visited.toList ++ [offset] ∧
        (i.operation.isHosted = false →
          o.scene.states =
            modifyScript r.states id fun t => { t with reentry := none, running := false }) := by
  refine ⟨fun host site i w after fault hop h => unchanged_of_execute_error hop h, ?_⟩
  intro s host h id time fault label o hfault hlabel
  cases hp : s.program? id with
  | none =>
      have hunknown : fault = .unknownActor id.actor := by
        simpa [o, runScript, hp, eq_comm] using hfault
      rw [hunknown] at hlabel
      cases hlabel
  | some program =>
      rcases runScript_error_cases hp hfault with
        ⟨offset, length, rfl⟩ | ⟨limit, rfl⟩ |
        ⟨r, offset, i, last, hcomes, -, -, hstep, hvisited, hstates⟩
      · cases hlabel
      · cases hlabel
      · refine ⟨r, offset, i, hcomes, ?_, ?_, ?_⟩
        · have hname := (Run.fails_of_step hstep).label?
          rw [hlabel] at hname
          exact Option.some.inj hname
        · have hlast := Run.visited_step (s.context host id program time) offset i r
          rw [hstep] at hlast
          rw [hvisited, hlast, Array.toList_push]
        · intro hop
          -- Taking the resume point away and ending the script is ending the script.
          have hended : o.scene.states = modifyScript (modifyScript r.states id fun t =>
              { t with reentry := none }) id ScriptState.terminate := by
            rw [hstates, Run.states_of_fault hstep hop]
            rfl
          rw [hended, modifyScript_modifyScript]
          rfl

/-- A script that has sent itself to its beginning comes to a SWIF whose predicate the game does not
know. It ends there, and what was to come next is what it was before the SWIF. -/
theorem execute_error_unchanged_swif :
    let source : SceneSource :=
      { actors := [{ life := [0x22, 0, 4, 0, 0x0D, 3, 0, 1, 10, 0, 0] }] }
    let s := ofCompiled (compileScene .standard source) {}
    let host : Host Unit := ⟨fun call h => (⟨.ok .advance, call.actor, call.callState⟩, h),
      fun _ h => (.error (.unsupported "ZONE"), h)⟩
    let swif := ((s.program? (.life 0)).bind fun p => p.instructions[2]?).getD default
    let o := s.runScript host () (.life 0) {}
    swif.operation = .swif ∧
    (∃ after : World Unit, (Step.execute host ⟨.life 0, 2, {}⟩ swif).run
        ⟨s.states, { latch := true }, ()⟩ = (.error (.host "2 SWIF" (.unsupported "ZONE")), after) ∧
      after.states = s.states ∧ after.callState = { latch := true }) ∧
    o.result = .error (.host "2 SWIF" (.unsupported "ZONE")) ∧ o.visited = [0, 1, 2] ∧
    ∃ r, s.ComesTo host () (.life 0) {} r 2 swif ∧
      o.scene.states =
        modifyScript r.states (.life 0) fun t => { t with reentry := none, running := false } := by
  intro source s host swif o
  have hop : swif.operation = .swif := by decide +kernel
  have hosted : swif.operation.isHosted = false := by rw [hop]; rfl
  have hresult : o.result = .error (.host "2 SWIF" (.unsupported "ZONE")) := by decide +kernel
  have hvisited : o.visited = [0, 1, 2] := by decide +kernel
  have hexecute : ((Step.execute host ⟨.life 0, 2, {}⟩ swif).run
      ⟨s.states, { latch := true }, ()⟩).1 = .error (.host "2 SWIF" (.unsupported "ZONE")) := by
    decide +kernel
  refine ⟨hop, ⟨_, Prod.ext hexecute rfl, ?_⟩, hresult, hvisited, ?_⟩
  · exact execute_error_unchanged.1 host ⟨.life 0, 2, {}⟩ swif _ _ _ hosted
      (Prod.ext hexecute rfl)
  · obtain ⟨r, offset, i, hcomes, -, hlast, hstates⟩ :=
      execute_error_unchanged.2 s host () (.life 0) {} _ _ hresult rfl
    have hoffset : 2 = offset := by
      rw [hvisited] at hlast
      have hends := congrArg List.getLast? hlast
      rw [List.getLast?_concat] at hends
      exact Option.some.inj hends
    obtain ⟨program, start, n, hp, hr, hsteps, hat⟩ := hcomes
    have hi : swif = i := by
      have hfetched : program.instructions[2]? = some i := hoffset ▸ hat.2.2
      show ((s.program? (.life 0)).bind fun p => p.instructions[2]?).getD default = i
      rw [hp, Option.bind_some, hfetched, Option.getD_some]
    subst hoffset hi
    exact ⟨r, ⟨program, start, n, hp, hr, hsteps, hat⟩, hstates hosted⟩

end Scene

end SceneScript
