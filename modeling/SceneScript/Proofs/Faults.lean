import SceneScript.Proofs.Runs

/-! # Faults of compiled scenes

The engine checks every operand it uses. In a scene compiled with the standard catalog most of these
checks never fail: an instruction is broken only because one of its operands, or the parameter of
its condition, was left unresolved, or because it labels an arm of a switch that was not opened
(`Instruction.Blamed`). When compiling reported nothing, the last reason is the only one
(`blamed_of_runScript_broken`). -/

namespace SceneScript

/-- The flaws a sound instruction can be blamed for, with the value of the switch it is executed
under. -/
inductive Instruction.Blamed (i : Instruction) (switchValue : Option Int) : Flaw → Prop
  | jump {n : Int} : .unresolved n ∈ i.operands → Blamed i switchValue (.unresolvedJump n)
  | actor {n : Int} : .unresolved n ∈ i.operands → Blamed i switchValue (.unresolvedActor n)
  | param {n : Int} {k : BoundCondition} : i.condition = some k → k.param = some (.unresolved n) →
      Blamed i switchValue (.unresolvedActor n)
  | switch : i.operation = .caseArm ∨ i.operation = .orCaseArm → switchValue = none →
      Blamed i switchValue .noSwitchValue

section
variable {size? : ScriptId → Option Nat} {count : Nat} {id : ScriptId} {site : Site}
  {i : Instruction} {states : Array ActorState} {flaw : Flaw}

theorem Instruction.Sound.targetAt (h : i.Sound size? count id) {k : Nat}
    (hk : i.operation.targetSlot? = some k) (hflaw : i.targetAt k = .error flaw) :
    ∃ n, flaw = .unresolvedJump n ∧ .unresolved n ∈ i.operands := by
  unfold Instruction.targetAt at hflaw
  rcases h.target k hk with ⟨n, hn⟩ | ⟨t, dest, size, ht, -⟩
  · rw [hn] at hflaw
    cases hflaw
    exact ⟨n, rfl, List.mem_of_getElem? hn⟩
  · rw [ht] at hflaw
    cases hflaw

theorem unresolved_of_actorOperand {o : Option Operand}
    (h : (∃ n, o = some (.unresolved n)) ∨ ∃ a, o = some (.actor a) ∧ a < count)
    (hflaw : actorOperand count o = .error flaw) :
    ∃ n, flaw = .unresolvedActor n ∧ o = some (.unresolved n) := by
  rcases h with ⟨n, rfl⟩ | ⟨a, rfl, hlt⟩
  · cases hflaw
    exact ⟨n, rfl, rfl⟩
  · rw [actorOperand, if_pos hlt] at hflaw
    cases hflaw

theorem Fails.blamed {label : String} (h : Fails site i states (.broken label flaw))
    (hsound : i.Sound size? states.size id) :
    label = i.label ∧ i.Blamed (site.own states).switchValue flaw := by
  generalize hf : Fault.broken label flaw = f at h
  cases h with
  | target hk hflaw =>
      cases hf
      obtain ⟨n, rfl, hn⟩ := hsound.targetAt hk hflaw
      exact ⟨rfl, .jump hn⟩
  | actor hn hflaw =>
      cases hf
      obtain ⟨n, rfl, ho⟩ := unresolved_of_actorOperand (hsound.actor hn) hflaw
      exact ⟨rfl, .actor (List.mem_of_getElem? ho)⟩
  | condition hc hflaw =>
      obtain ⟨k, hk⟩ := Option.isSome_iff_exists.mp (hsound.condition hc)
      rw [Instruction.predicate, hk] at hflaw
      cases hflaw
  | param hk hs hflaw =>
      cases hf
      obtain ⟨n, rfl, ho⟩ := unresolved_of_actorOperand (hsound.param _ hk hs) hflaw
      exact ⟨rfl, .param hk ho⟩
  | test hc hflaw =>
      obtain ⟨t, ht⟩ := Option.isSome_iff_exists.mp (hsound.test hc)
      rw [Instruction.comparison, ht] at hflaw
      cases hflaw
  | number hc hflaw =>
      obtain ⟨n, hn⟩ := hsound.number hc
      rw [Instruction.numberAt, hn] at hflaw
      cases hflaw
  | record hr hneeds =>
      rw [hsound.record hr] at hneeds
      cases hneeds
  | switchValue hop hnone =>
      cases hf
      exact ⟨rfl, .switch hop hnone⟩
  | host e => cases hf

end

/-- Without findings an instruction is blamed only for the value of a switch. -/
theorem Instruction.Blamed.eq_noSwitchValue {i : Instruction} {v : Option Int} {flaw : Flaw}
    (h : i.Blamed v flaw)
    (hresolved : ∀ n, .unresolved n ∉ i.operands ∧
      ∀ k, i.condition = some k → k.param ≠ some (.unresolved n)) :
    flaw = .noSwitchValue := by
  cases h with
  | jump hn => exact absurd hn (hresolved _).1
  | actor hn => exact absurd hn (hresolved _).1
  | param hk hn => exact absurd hn ((hresolved _).2 _ hk)
  | switch => rfl

namespace Scene

variable {σ : Type}

/-- A run that ends with a broken instruction has come to it and failed there. -/
theorem comesTo_of_broken {s : Scene} {host : Host σ} {h : σ} {id : ScriptId} {time : FrameTime}
    {label : String} {flaw : Flaw}
    (hbroken : (s.runScript host h id time).result = .error (.broken label flaw)) :
    ∃ r offset i program, s.program? id = some program ∧ program.instructions[offset]? = some i ∧
      s.ComesTo host h id time r offset i ∧ r.states.size = s.states.size ∧
      Fails ⟨id, offset, time⟩ i (modifyScript r.states id fun t => { t with reentry := none })
        (.broken label flaw) := by
  cases hp : s.program? id with
  | none =>
      simp only [runScript, hp] at hbroken
      cases hbroken
  | some program =>
      rcases runScript_error_cases hp hbroken with
        ⟨offset, length, hover⟩ | ⟨limit, hgas⟩ |
        ⟨r, offset, i, last, hcomes, hat, hsize, hstep, -, -⟩
      · cases hover
      · cases hgas
      · exact ⟨r, offset, i, program, rfl, hat.2.2, hcomes, hsize, Run.fails_of_step hstep⟩

/-- **Broken instructions of compiled scenes.** Whatever the states of the actors and whatever the
game, a script of a scene compiled with the standard catalog is stopped as broken only at an
instruction it comes to, for an operand or a parameter that is unresolved there, or for a label of a
switch that was not opened; and only for the last when compiling reported nothing. -/
theorem blamed_of_runScript_broken (source : SceneSource) (s : Scene) (hs : s.Plays source)
    (host : Host σ) (h : σ) (id : ScriptId) (time : FrameTime) (label : String) (flaw : Flaw)
    (hbroken : (s.runScript host h id time).result = .error (.broken label flaw)) :
    (∃ r offset i, s.ComesTo host h id time r offset i ∧ label = i.label ∧
      i.Blamed (r.script id).switchValue flaw) ∧
    ((compileScene .standard source).diagnostics.isEmpty = true → flaw = .noSwitchValue) := by
  obtain ⟨r, offset, i, program, hp, hi, hcomes, hsize, hfails⟩ := comesTo_of_broken hbroken
  have hsound := hs.sound hp hi
  have hlt : id.actor < r.states.size := by
    rw [hsize]
    exact hs.actor_lt hp
  obtain ⟨hlabel, hblamed⟩ := hfails.blamed (by simpa [hsize, hs.size] using hsound)
  rw [Site.own, scriptAt_modifyScript_self hlt] at hblamed
  refine ⟨⟨r, offset, i, hcomes, hlabel, hblamed⟩, ?_⟩
  intro hempty
  rw [SceneSource.compileScene_diagnostics, DiagnosticLog.isEmpty_pushAll_iff] at hempty
  rw [hs.program?, Option.map_eq_some_iff] at hp
  obtain ⟨parsed, hparsed, rfl⟩ := hp
  exact hblamed.eq_noSwitchValue (SceneSource.resolved_of_findings_eq_nil hempty hparsed hi)

/-- A script that jumps over its SWITCH to the label behind it compiles without a word, and breaks
at the label. -/
theorem blamed_of_skipped_switch :
    let source : SceneSource :=
      { actors := [{ life := [0x03, 5, 0, 0x71, 3, 0x73, 10, 0, 0, 1, 0x76, 0] }] }
    let s := ofCompiled (compileScene .standard source) {}
    (compileScene .standard source).diagnostics.isEmpty = true ∧
      (s.runScript .quiet () (.life 0) {}).result = .error (.broken "3 CASE" .noSwitchValue) ∧
      ∃ r offset i, s.ComesTo .quiet () (.life 0) {} r offset i ∧ "3 CASE" = i.label ∧
        i.Blamed (r.script (.life 0)).switchValue .noSwitchValue := by
  intro source s
  have hbroken : (s.runScript .quiet () (.life 0) {}).result =
      .error (.broken "3 CASE" .noSwitchValue) := by decide +kernel
  exact ⟨by decide +kernel, hbroken,
    (blamed_of_runScript_broken source s (plays_ofCompiled source {}) .quiet () (.life 0) {} _ _
      hbroken).1⟩

end Scene

end SceneScript
