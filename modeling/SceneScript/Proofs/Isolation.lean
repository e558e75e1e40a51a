import SceneScript.Proofs.Runs

/-! # Isolation of actors

A run of one actor's script reaches the scripts of another actor in one way only: it executes an
instruction that names the actor in its first operand (`Instruction.Names`), and that instruction
changes at most where a script resumes and which position it keeps (`ScriptState.Diverted`).

* `Effect.afar`, `Acts.afar`: so it is for what one instruction does, whatever the game does to the
  states of the calling actor.
* `Run.step_afar`: so it is for a step, with or without a fault.
* `Run.Spares`, `Steps.spares`, `Stops.spares`: so it is for all steps of a run together, the
  instructions being those the run has executed (`Program.executed`).
* `runScript_isolated`: so it is for running a script of a scene; programs and scratch records of all
  other scripts are left alone as well. -/

namespace SceneScript

/-! ### Executed instructions -/

/-- The instructions at the places a run visited, in order, less those a headless scene passes
over. -/
def Program.executed (p : Program) (headless : Bool) (visited : List Nat) : List Instruction :=
  (visited.filterMap fun k => p.instructions[k]?).filter fun i =>
    !(headless && i.opcode.skippedHeadless)

theorem Program.executed_append (p : Program) (headless : Bool) (u v : List Nat) :
    p.executed headless (u ++ v) = p.executed headless u ++ p.executed headless v := by
  simp [executed]

theorem Program.executed_singleton {p : Program} {k : Nat} {i : Instruction}
    (hi : p.instructions[k]? = some i) (headless : Bool) :
    p.executed headless [k] = if headless && i.opcode.skippedHeadless then [] else [i] := by
  simp only [executed, List.filterMap_cons, hi, List.filterMap_nil, List.filter_cons,
    List.filter_nil]
  cases headless && i.opcode.skippedHeadless <;> rfl

/-- The instructions that a run of a script of the scene executed, from the places it visited. -/
def Scene.executed (s : Scene) (id : ScriptId) (visited : List Nat) : List Instruction :=
  match s.program? id with
  | none => []
  | some p => p.executed s.config.headless visited

/-- The first operand of the instruction names an actor, whose scripts the instruction is for. -/
def Instruction.Names (i : Instruction) (b : Nat) : Prop :=
  i.operation.namesActor = true ∧ i.operands[0]? = some (.actor b)

/-! ### Diverted scripts -/

/-- The second state of a script differs from the first at most in where the script resumes and in
the position it keeps: instruction, activity, track, behaviors and switch are the same. -/
def ScriptState.Diverted (before after : ScriptState) : Prop :=
  after = { before with reentry := after.reentry, savedOffset := after.savedOffset }

theorem ScriptState.Diverted.refl (s : ScriptState) : s.Diverted s := rfl

theorem ScriptState.Diverted.trans {s t u : ScriptState} (h : s.Diverted t) (h' : t.Diverted u) :
    s.Diverted u := by
  unfold Diverted at h h' ⊢
  calc u = { t with reentry := u.reentry, savedOffset := u.savedOffset } := h'
    _ = { s with reentry := u.reentry, savedOffset := u.savedOffset } := by rw [h]

/-- An instruction that changes a script of another actor names the actor and only diverts the
script. -/
theorem Effect.afar {site : Site} {i : Instruction} {states : Array ActorState} {flow : Flow}
    {script : ScriptId} {f : ScriptState → ScriptState} (he : Effect site i states flow script f)
    (hne : script.actor ≠ site.script.actor) :
    i.Names script.actor ∧ ∀ s : ScriptState, s.Diverted (f s) := by
  cases he with
  | sendBehavior hop ha | saveBehaviorOf hop ha | resumeBehavior hop ha | sendTrackOf hop ha
  | stopTrackOf hop ha => exact ⟨⟨by rw [hop]; rfl, ha⟩, fun _ => rfl⟩
  | resumeTrackOf hop ha =>
      refine ⟨⟨by rw [hop]; rfl, ha⟩, ?_⟩
      intro s
      unfold Step.restoreTrack
      split <;> rfl
  | _ => exact absurd rfl hne

/-- What comes of an instruction leaves a script of another actor alone, or the instruction names
the actor and only diverts the script. -/
theorem Acts.afar {σ : Type} {host : Host σ} {site : Site} {i : Instruction}
    {states : Array ActorState} {c : CallState} {result : Except Fault Flow} {w : World σ}
    (hacts : Acts host site i states c result w) {id : ScriptId}
    (hne : id.actor ≠ site.script.actor) :
    scriptAt w.states id = scriptAt states id ∨
      i.Names id.actor ∧ (scriptAt states id).Diverted (scriptAt w.states id) := by
  cases hacts with
  | @effect flow script f _ he hstates _ =>
      rw [hstates]
      rcases scriptAt_modifyScript_cases states script f id with h | ⟨rfl, h⟩
      · exact .inl h
      · obtain ⟨hnames, hdiverted⟩ := he.afar hne
        rw [h]
        exact .inr ⟨hnames, hdiverted _⟩
  | fault _ hstates _ =>
      rw [hstates]
      exact .inl rfl
  | hosted _ _ hstates =>
      -- The game replaces the states of the caller, who is not this actor.
      rw [hstates]
      rcases scriptAt_modify_cases states site.script.actor _ id with h | ⟨hactor, -⟩
      · exact .inl h
      · exact absurd hactor hne

/-! ### Steps and runs -/

namespace Run

variable {σ : Type} {cx : RunContext σ}

/-- The instructions a run has executed so far. -/
def executed (cx : RunContext σ) (r : Run σ) : List Instruction :=
  cx.program.executed cx.headless r.visited.toList

theorem executed_step {offset : Nat} {i : Instruction}
    (hi : cx.program.instructions[offset]? = some i) (r : Run σ) :
    executed cx (step cx offset i r).2 =
      executed cx r ++ if cx.headless && i.opcode.skippedHeadless then [] else [i] := by
  rw [executed, visited_step, Array.toList_push, Program.executed_append,
    Program.executed_singleton hi]
  rfl

/-- An instruction that a headless scene passes over only moves its own script on. -/
theorem step_of_skipped {offset : Nat} {i : Instruction}
    (h : (cx.headless && i.opcode.skippedHeadless) = true) (r : Run σ) :
    step cx offset i r =
      (.ok (), (arrived cx offset r).modifyScript cx.script (Flow.advance.apply offset)) :=
  step_of_perform_ok (perform_of_skipped h offset _)

/-- A script of another actor is after a step as the instruction left it. -/
theorem step_acts_elsewhere (cx : RunContext σ) (offset : Nat) (i : Instruction) (r : Run σ)
    {id : ScriptId} (hne : id.actor ≠ cx.script.actor) :
    ∃ c result w, Acts cx.host ⟨cx.script, offset, cx.time⟩ i (entered cx r) c result w ∧
      scriptAt (entered cx r) id = scriptAt r.states id ∧
      scriptAt (step cx offset i r).2.states id = scriptAt w.states id := by
  have hid : id ≠ cx.script := fun h => hne (congrArg ScriptId.actor h)
  obtain ⟨c, result, w, hacts, -, hstates⟩ := step_acts cx offset i r
  refine ⟨c, result, w, hacts, scriptAt_modifyScript_of_ne hid _, ?_⟩
  rw [hstates]
  cases result with
  | ok flow => exact scriptAt_modifyScript_of_ne hid _
  | error f => rfl

theorem step_elsewhere_of_skipped {offset : Nat} {i : Instruction}
    (h : (cx.headless && i.opcode.skippedHeadless) = true) (r : Run σ) {id : ScriptId}
    (hne : id.actor ≠ cx.script.actor) :
    scriptAt (step cx offset i r).2.states id = scriptAt r.states id := by
  have hid : id ≠ cx.script := fun h => hne (congrArg ScriptId.actor h)
  rw [step_of_skipped h]
  exact (scriptAt_modifyScript_of_ne hid _).trans (scriptAt_modifyScript_of_ne hid _)

/-- Before and after a step, a script of another actor is the same, or the step executed an
instruction that names the actor and diverted the script. -/
theorem step_afar (cx : RunContext σ) (offset : Nat) (i : Instruction) (r : Run σ) {id : ScriptId}
    (hne : id.actor ≠ cx.script.actor) :
    scriptAt (step cx offset i r).2.states id = scriptAt r.states id ∨
      (cx.headless && i.opcode.skippedHeadless) = false ∧ i.Names id.actor ∧
        (scriptAt r.states id).Diverted (scriptAt (step cx offset i r).2.states id) := by
  cases hskip : cx.headless && i.opcode.skippedHeadless with
  | true => exact .inl (step_elsewhere_of_skipped hskip r hne)
  | false =>
      obtain ⟨c, result, w, hacts, hentered, hafter⟩ := step_acts_elsewhere cx offset i r hne
      rw [hafter, ← hentered]
      rcases hacts.afar hne with h | ⟨hnames, hdiverted⟩
      · exact .inl h
      · exact .inr ⟨rfl, hnames, hdiverted⟩

/-- From one run to a later one the scripts of an actor are diverted at most, and left alone unless
an instruction executed by then names the actor. -/
structure Spares (cx : RunContext σ) (b : Nat) (r s : Run σ) : Prop where
  diverted : ∀ kind, (scriptAt r.states ⟨b, kind⟩).Diverted (scriptAt s.states ⟨b, kind⟩)
  named : ∀ kind, scriptAt s.states ⟨b, kind⟩ ≠ scriptAt r.states ⟨b, kind⟩ →
    ∃ i ∈ executed cx s, i.Names b

theorem Spares.refl (cx : RunContext σ) (b : Nat) (r : Run σ) : Spares cx b r r :=
  ⟨fun _ => .refl _, fun _ h => absurd rfl h⟩

theorem Spares.step {b : Nat} (hb : b ≠ cx.script.actor) {r s : Run σ} (h : Spares cx b r s)
    {offset : Nat} {i : Instruction} (hi : cx.program.instructions[offset]? = some i) :
    Spares cx b r (Run.step cx offset i s).2 := by
  have hexecuted := executed_step hi s
  have hscript : ∀ kind, (⟨b, kind⟩ : ScriptId).actor ≠ cx.script.actor := fun _ => hb
  refine ⟨?_, ?_⟩
  · intro kind
    rcases step_afar cx offset i s (hscript kind) with he | ⟨-, -, hd⟩
    · rw [he]
      exact h.diverted kind
    · exact (h.diverted kind).trans hd
  · intro kind hdiffers
    rw [hexecuted]
    rcases step_afar cx offset i s (hscript kind) with he | ⟨hskip, hnames, -⟩
    · rw [he] at hdiffers
      obtain ⟨j, hj, hnames⟩ := h.named kind hdiffers
      exact ⟨j, List.mem_append_left _ hj, hnames⟩
    · exact ⟨i, by simp [hskip], hnames⟩

theorem Steps.spares {b : Nat} (hb : b ≠ cx.script.actor) {n : Nat} {r s : Run σ}
    (hsteps : Steps cx n r s) : Spares cx b r s := by
  refine hsteps.invariant ?_ (.refl cx b r)
  intro u v offset i hat hstep hu
  have hv := hu.step hb hat.2.2
  rwa [hstep] at hv

theorem Stops.spares {b : Nat} (hb : b ≠ cx.script.actor) {r s : Run σ}
    {o : Except Fault Unit × Run σ} (h : Spares cx b r s) (hstops : Stops cx s o) :
    Spares cx b r o.2 := by
  cases hstops with
  | ended | overrun | exhausted => exact h
  | @fault offset i f after hat hstep =>
      have hafter := h.step hb hat.2.2
      rwa [hstep] at hafter

end Run

/-! ### Scenes -/

def Scene.scratch (s : Scene) (id : ScriptId) : Memory := (s.memory.getD id.actor {}).get id.kind

namespace Scene

variable {σ : Type}

theorem executed_of_program {s : Scene} {id : ScriptId} {program : Program}
    (hp : s.program? id = some program) (visited : List Nat) :
    s.executed id visited = program.executed s.config.headless visited := by
  rw [executed, hp]

/-- Running a script replaces its own scratch records at most. -/
theorem memory_runScript (s : Scene) (host : Host σ) (h : σ) (id : ScriptId) (time : FrameTime) :
    (s.runScript host h id time).scene.memory = s.memory ∨
      ∃ m, (s.runScript host h id time).scene.memory =
        s.memory.modify id.actor fun a => a.set id.kind m := by
  unfold runScript
  split
  · exact .inl rfl
  · dsimp only
    split
    · exact .inr ⟨_, rfl⟩
    · exact .inr ⟨_, rfl⟩

theorem scratch_runScript_of_ne {s : Scene} {id other : ScriptId} (hne : other ≠ id)
    (host : Host σ) (h : σ) (time : FrameTime) :
    (s.runScript host h id time).scene.scratch other = s.scratch other := by
  unfold scratch
  rcases memory_runScript s host h id time with hm | ⟨m, hm⟩
  · rw [hm]
  · rw [hm, Array.getD_eq_getD_getElem?, Array.getElem?_modify, Array.getD_eq_getD_getElem?]
    split
    · next hactor =>
        have hkind : id.kind ≠ other.kind := by
          intro hkind
          apply hne
          cases id
          cases other
          simp_all
        cases s.memory[other.actor]? with
        | none => rfl
        | some a => cases hid : id.kind <;> cases hother : other.kind <;> simp_all <;> rfl
    · rfl

/-- The scripts of another actor are spared by a whole run. -/
theorem runScript_spares (s : Scene) (host : Host σ) (h : σ) (id : ScriptId) (time : FrameTime)
    {b : Nat} (hb : b ≠ id.actor) (kind : ScriptKind) :
    (scriptAt s.states ⟨b, kind⟩).Diverted
        (scriptAt (s.runScript host h id time).scene.states ⟨b, kind⟩) ∧
      (scriptAt (s.runScript host h id time).scene.states ⟨b, kind⟩ ≠
          scriptAt s.states ⟨b, kind⟩ →
        ∃ i ∈ s.executed id (s.runScript host h id time).visited, i.Names b) := by
  have hid : (⟨b, kind⟩ : ScriptId) ≠ id := fun he => hb (congrArg ScriptId.actor he)
  cases hp : s.program? id with
  | none =>
      have hstates : (s.runScript host h id time).scene.states = s.states := by
        simp [runScript, hp]
      rw [hstates]
      exact ⟨.refl _, fun hdiffers => absurd rfl hdiffers⟩
  | some program =>
      rw [executed_of_program hp]
      cases hr : (scriptAt s.states id).reentry with
      | none =>
          rw [(runScript_of_terminated hp hr host h time).2]
          exact ⟨.refl _, fun hdiffers => absurd rfl hdiffers⟩
      | some start =>
          obtain ⟨n, r, result, last, hsteps, hstops, -, hvisited, hstates⟩ :=
            runScript_stops hp hr host h time
          have hspares := Run.Stops.spares hb (hsteps.spares hb) hstops
          have hbefore : scriptAt (s.started h id start).states ⟨b, kind⟩ =
              scriptAt s.states ⟨b, kind⟩ := scriptAt_modifyScript_of_ne hid _
          have hafter : scriptAt (s.runScript host h id time).scene.states ⟨b, kind⟩ =
              scriptAt last.states ⟨b, kind⟩ := by
            rw [hstates]
            cases result with
            | ok u => rfl
            | error f => exact scriptAt_modifyScript_of_ne hid _
          rw [hafter, hvisited, ← hbefore]
          exact ⟨hspares.diverted kind, hspares.named kind⟩

/-- **Runs of one actor are isolated from the others.** Whatever the game does, and whether or not
the run ends in a fault: in the scripts of every other actor only the resume point and the kept
position may change, and they do only if the run executed an instruction that names the actor.
Programs and scratch records change in no script but the one that ran. -/
theorem runScript_isolated (s : Scene) (host : Host σ) (h : σ) (id : ScriptId)
    (time : FrameTime) :
    let o := s.runScript host h id time
    o.scene.states.size = s.states.size ∧
      (∀ b, b ≠ id.actor → ∀ kind,
        let before := scriptAt s.states ⟨b, kind⟩
        let after := scriptAt o.scene.states ⟨b, kind⟩
        after = { before with reentry := after.reentry, savedOffset := after.savedOffset } ∧
          (after.reentry ≠ before.reentry ∨ after.savedOffset ≠ before.savedOffset →
            ∃ i ∈ s.executed id o.visited,
              i.operation ∈ [.setBehaviourObj, .saveBehaviourObj, .restoreBehaviourObj, .setTrackObj,
                .stopCurrentTrackObj, .restoreLastTrackObj] ∧
              i.operands[0]? = some (.actor b))) ∧
      ∀ other, other ≠ id →
        o.scene.program? other = s.program? other ∧ o.scene.scratch other = s.scratch other := by
  refine ⟨size_runScript s host h id time, ?_, ?_⟩
  · intro b hb kind
    obtain ⟨hdiverted, hnamed⟩ := runScript_spares s host h id time hb kind
    refine ⟨hdiverted, ?_⟩
    intro hdiffers
    have hne : scriptAt (s.runScript host h id time).scene.states ⟨b, kind⟩ ≠
        scriptAt s.states ⟨b, kind⟩ := by
      intro he
      rw [he] at hdiffers
      exact hdiffers.elim (absurd rfl) (absurd rfl)
    obtain ⟨i, hi, hnames, hactor⟩ := hnamed hne
    refine ⟨i, hi, ?_, hactor⟩
    cases hop : i.operation <;> simp_all [Operation.namesActor]
  · intro other hne
    exact ⟨program?_runScript s host h id other time, scratch_runScript_of_ne hne host h time⟩

/-- An actor that sends another to a track, in a game that rewrites the states of every caller: the
other resumes elsewhere, because it was named, and is otherwise where it was. -/
theorem runScript_isolated_sentTrack :
    let source : SceneSource :=
      { actors := [{ life := [0x0A, 3, 0x18, 1, 2, 0, 0x00] }, { moves := [0x09, 7, 0x0B] }] }
    let s := ofCompiled (compileScene .standard source) {}
    let game : Host Unit :=
      ⟨fun _ _ => (⟨.ok .advance, ⟨{ offset := 9, running := true }, { track := some 4 }⟩, none⟩, ()),
        fun _ _ => (.ok 0, ())⟩
    let o := s.runScript game () (.life 0) {}
    let before := scriptAt s.states (.move 1)
    let after := scriptAt o.scene.states (.move 1)
    o.result = .ok 4 ∧ (scriptAt o.scene.states (.move 0)).track = some 4 ∧
      before.reentry = some 0 ∧ after.reentry = some 1 ∧
      after = { before with reentry := after.reentry, savedOffset := after.savedOffset } ∧
      (∃ i ∈ s.executed (.life 0) o.visited,
        i.operation ∈ [.setBehaviourObj, .saveBehaviourObj, .restoreBehaviourObj, .setTrackObj,
          .stopCurrentTrackObj, .restoreLastTrackObj] ∧ i.operands[0]? = some (.actor 1)) ∧
      o.scene.scratch (.move 0) = s.scratch (.move 0) := by
  intro source s game o before after
  have hsent : before.reentry = some 0 ∧ after.reentry = some 1 := by decide +kernel
  obtain ⟨-, hothers, hrest⟩ := runScript_isolated s game () (.life 0) {}
  obtain ⟨hdiverted, hnamed⟩ := hothers 1 (by decide) .move
  have hdiffers : after.reentry ≠ before.reentry := by
    rw [hsent.1, hsent.2]
    decide
  exact ⟨by decide +kernel, by decide +kernel, hsent.1, hsent.2, hdiverted, hnamed (.inl hdiffers),
    (hrest (.move 0) (by decide)).2⟩

end Scene

end SceneScript
