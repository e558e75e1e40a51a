import SceneScript.Proofs.Snapshots

/-! # Rewritten programs

When other programs are put in the place of those of a scene, instruction by instruction, the scene
goes through any history as before as long as every instruction does what the one in its place did.

* `RunContext.Mimics`: at every instruction that a run comes to, another one does the same step.
* `Run.drive_mimic`, `Run.start_mimic`: the two runs are then the same to their end.
* `Scene.Rewriting`: another program for every script, and other settings of the scene.
* `Scene.Rewriting.Faithful`: the rewritten scripts mimic the old ones. What a request and a history
  come to is the same then (`Faithful.serve`, `Faithful.play`), and so is what passes between the
  scripts and the games (`Faithful.told`). -/

namespace SceneScript

/-! ### Runs -/

/-- At every instruction that a run of `cx` comes to, `dx` has one in its place that does the same
step. -/
structure RunContext.Mimics {σ : Type} (dx cx : RunContext σ) : Prop where
  script : dx.script = cx.script
  gasLimit : dx.gasLimit = cx.gasLimit
  size : dx.program.instructions.size = cx.program.instructions.size
  step : ∀ {r : Run σ} {offset : Nat} {i : Instruction}, Run.At cx r offset i →
    ∃ j, dx.program.instructions[offset]? = some j ∧
      Run.step dx offset j r = Run.step cx offset i r

theorem RunContext.Mimics.refl {σ : Type} (cx : RunContext σ) : cx.Mimics cx where
  script := rfl
  gasLimit := rfl
  size := rfl
  step hat := ⟨_, hat.2.2, rfl⟩

namespace Run

variable {σ : Type} {dx cx : RunContext σ}

/-- The runs stop alike where they are at no instruction. -/
theorem halt?_mimic (h : dx.Mimics cx) (r : Run σ) : halt? dx r = halt? cx r := by
  unfold halt?
  rw [h.script, h.size]

theorem At.mimic (h : dx.Mimics cx) {r : Run σ} {offset : Nat} {i : Instruction}
    (hat : At cx r offset i) :
    ∃ j, At dx r offset j ∧ step dx offset j r = step cx offset i r := by
  obtain ⟨j, hj, hstep⟩ := h.step hat
  refine ⟨j, ⟨?_, ?_, hj⟩, hstep⟩
  · rw [h.script]
    exact hat.1
  · rw [h.script]
    exact hat.2.1

/-- **A run that mimics another** is the same to its end. -/
theorem drive_mimic (h : dx.Mimics cx) (gas : Nat) (r : Run σ) :
    drive dx gas r = drive cx gas r := by
  induction gas generalizing r with
  | zero =>
      rcases halts_or_at cx r with ⟨result, hhalt⟩ | ⟨offset, i, hat⟩
      · rw [drive_of_halt? hhalt, drive_of_halt? ((halt?_mimic h r).trans hhalt)]
      · obtain ⟨j, hat', -⟩ := hat.mimic h
        rw [drive_zero_of_at hat, drive_zero_of_at hat', h.gasLimit]
  | succ gas ih =>
      rcases halts_or_at cx r with ⟨result, hhalt⟩ | ⟨offset, i, hat⟩
      · rw [drive_of_halt? hhalt, drive_of_halt? ((halt?_mimic h r).trans hhalt)]
      · obtain ⟨j, hat', hstep⟩ := hat.mimic h
        rw [drive_succ_of_at hat, drive_succ_of_at hat', hstep]
        rcases step cx offset i r with ⟨fault | u, s⟩
        · rfl
        · exact ih s

theorem start_mimic (h : dx.Mimics cx) (r : Run σ) : start dx r = start cx r := by
  unfold start
  rw [h.script, h.gasLimit]
  split
  · rfl
  · exact drive_mimic h cx.gasLimit _

end Run

/-! ### Scenes -/

/-- The same request, with games that note what passes between them and the scripts. -/
def Request.recorded {σ : Type} : Request σ → Request (σ × List Exchange)
  | .frame host time => .frame host.recorded time
  | .script host id time => .script host.recorded id time
  | .kill actor => .kill actor
  | .revive actor => .revive actor
  | .restore x => .restore x

namespace Scene

variable {σ : Type} {s : Scene}

/-- What passes between the scripts and the games in the course of a history. -/
def told (s : Scene) (h : σ) (requests : List (Request σ)) : List Exchange :=
  (s.play (h, []) (requests.map Request.recorded)).2.2.2

/-- Another program for every script, and other settings. -/
structure Rewriting where
  program : ScriptId → Program → Program
  config : Config → Config := id

namespace Rewriting

variable {ρ : Rewriting} {P : Scene → Prop}

/-- The scene with other programs and settings. -/
def apply (ρ : Rewriting) (s : Scene) : Scene :=
  { s with
    programs := s.programs.mapIdx fun a p => ⟨ρ.program (.life a) p.life, ρ.program (.move a) p.moves⟩
    config := ρ.config s.config }

/-- In scenes with `P`, a property that lasts, the rewritten scripts mimic the old ones. Programs
keep their lengths and the parts of their instructions, and the scene keeps tracing. -/
structure Faithful (ρ : Rewriting) (P : Scene → Prop) : Prop where
  lasting : ∀ {s t : Scene}, t.blank = s.blank → P s → P t
  size : ∀ (id : ScriptId) (p : Program), (ρ.program id p).instructions.size = p.instructions.size
  part : ∀ (id : ScriptId) (p : Program) (k : Nat),
    (ρ.program id p).instructions[k]?.bind Instruction.part = p.instructions[k]?.bind Instruction.part
  tracing : ∀ config, (ρ.config config).trace = config.trace
  mimics : ∀ {σ : Type} {s : Scene} {id : ScriptId} {p : Program} (host : Host σ)
    (time : FrameTime), P s → s.program? id = some p →
      ((ρ.apply s).context host id (ρ.program id p) time).Mimics (s.context host id p time)

theorem program?_apply (ρ : Rewriting) (s : Scene) (id : ScriptId) :
    (ρ.apply s).program? id = (s.program? id).map (ρ.program id) := by
  obtain ⟨a, kind⟩ := id
  unfold apply program?
  rw [Array.getElem?_mapIdx, Option.map_map, Option.map_map]
  congr 1
  funext p
  cases kind <;> rfl

/-- What a run leaves does not depend on the programs. -/
theorem outcome_apply (ρ : Rewriting) (s : Scene) (id : ScriptId) (o : Except Fault Unit × Run σ) :
    (ρ.apply s).outcome id o = (s.outcome id o).mapScene ρ.apply := by
  rcases o with ⟨fault | u, r⟩ <;> rfl

theorem aside_apply (ρ : Rewriting) : Aside ρ.apply := by
  constructor <;> intros <;> rfl

namespace Faithful

theorem runScript (hρ : ρ.Faithful P) (hs : P s) (host : Host σ) (h : σ) (id : ScriptId)
    (time : FrameTime) :
    (ρ.apply s).runScript host h id time = (s.runScript host h id time).mapScene ρ.apply := by
  have hprogram := ρ.program?_apply s id
  cases hp : s.program? id with
  | none =>
      rw [hp, Option.map_none] at hprogram
      simp only [Scene.runScript, hp, hprogram]
      rfl
  | some p =>
      rw [hp, Option.map_some] at hprogram
      have hready : (ρ.apply s).ready h id = s.ready h id := rfl
      rw [runScript_eq_outcome hprogram, runScript_eq_outcome hp, hready,
        Run.start_mimic (hρ.mimics host time hs hp), outcome_apply]

theorem visit? (hρ : ρ.Faithful P) (s : Scene) (id : ScriptId) (visited : List Nat) :
    (ρ.apply s).visit? id visited = s.visit? id visited := by
  unfold Scene.visit?
  rw [program?_apply]
  cases s.program? id with
  | none => rfl
  | some p => simp only [Option.map_some, Option.bind_some, hρ.part]

/-- The rewriting does not show in the runs of scripts. -/
theorem unseen (hρ : ρ.Faithful P) : Unseen P ρ.apply where
  keeps host h id time hs := hρ.lasting (blank_runScript _ host h id time) hs
  run host h id time hs := hρ.runScript hs host h id time
  visit := hρ.visit?

theorem runFrame (hρ : ρ.Faithful P) (hs : P s) (host : Host σ) (h : σ) (time : FrameTime) :
    (ρ.apply s).runFrame host h time =
      let (report, t, g) := s.runFrame host h time
      (report, ρ.apply t, g) := by
  have hstart : P { s with frame := s.frame + 1 } := hρ.lasting (s := s) rfl hs
  have hdone := hρ.unseen.foldl host time s.scripts
    (p := ⟨{ s with frame := s.frame + 1 }, h, { frame := s.frame + 1 }, []⟩) hstart
  have hscripts : (ρ.apply s).scripts = s.scripts := rfl
  have htracing : (ρ.apply s).config.trace = s.config.trace := hρ.tracing s.config
  unfold Scene.runFrame
  rw [hscripts, htracing]
  exact congrArg (fun p : FrameProgress σ => (p.report,
    { p.scene with trace := if s.config.trace then some ⟨s.frame + 1, p.visits⟩ else none },
    p.host)) hdone

theorem restart (hρ : ρ.Faithful P) (id : ScriptId) (p : Program) (s : ScriptState) :
    Scene.restart (ρ.program id p) s = Scene.restart p s := by
  unfold Scene.restart Array.isEmpty
  rw [hρ.size]

theorem reviveActor (hρ : ρ.Faithful P) (s : Scene) (actor : Nat) :
    (ρ.apply s).reviveActor actor = (s.reviveActor actor).map ρ.apply := by
  have hprograms : (ρ.apply s).programs[actor]? = s.programs[actor]?.map fun p =>
      ⟨ρ.program (.life actor) p.life, ρ.program (.move actor) p.moves⟩ :=
    Array.getElem?_mapIdx
  unfold Scene.reviveActor
  rw [hprograms]
  cases s.programs[actor]? with
  | none => rfl
  | some programs =>
      simp only [Option.map_some, hρ.restart]
      rfl

/-- **What comes of a request** to a scene comes of it in the rewritten scene. -/
theorem serve (hρ : ρ.Faithful P) (hs : P s) (h : σ) (request : Request σ) :
    (ρ.apply s).serve h request =
      let (answer, t, g) := s.serve h request
      (answer, ρ.apply t, g) := by
  cases request with
  | frame host time => rw [Scene.serve, Scene.serve, hρ.runFrame hs]
  | script host id time =>
      rw [Scene.serve, Scene.serve, hρ.runScript hs]
      rfl
  | kill actor => rw [Scene.serve, Scene.serve, ρ.aside_apply.killActor, attempt_map ρ.apply]
  | revive actor => rw [Scene.serve, Scene.serve, hρ.reviveActor, attempt_map ρ.apply]
  | restore x => rw [Scene.serve, Scene.serve, ρ.aside_apply.restore, attempt_map ρ.apply]

/-- **A history** of a scene is one of the rewritten scene. -/
theorem play (hρ : ρ.Faithful P) (hs : P s) (h : σ) (requests : List (Request σ)) :
    (ρ.apply s).play h requests =
      let (answers, t, g) := s.play h requests
      (answers, ρ.apply t, g) := by
  refine play_map (f := ρ.apply) (P := P) (fun _ => rfl) ?_ ?_ hs h requests
  · intro s h request hs
    exact hρ.lasting (blank_serve s h request) hs
  · intro s h request hs
    exact hρ.serve hs h request

theorem told (hρ : ρ.Faithful P) (hs : P s) (h : σ) (requests : List (Request σ)) :
    (ρ.apply s).told h requests = s.told h requests := by
  unfold Scene.told
  rw [hρ.play hs]

end Faithful

end Rewriting

end Scene

end SceneScript
