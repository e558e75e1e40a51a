import SceneScript.Proofs.Rewriting

/-! # Headless play

A headless scene passes over the commands of side scenes, such as sounds. It does so as if they had
been written as NOP: `Scene.muted` is the scene with these commands replaced, each at its own index,
and played in full it cannot be told from the headless one.

* `Run.perform_muted`, `Run.step_muted`: passing over a command is executing a NOP in its place; it
  costs a step, is visited and leaves scratch records and the game alone.
* `Scene.faithful_muting`: muting is a faithful rewriting of headless scenes, so it does not show in
  anything that is asked of them.
* `Scene.play_headless`: what a history comes to, what it leaves and what passes between the scripts
  and the games are the same in both. -/

namespace SceneScript

/-! ### Muted programs -/

/-- A NOP in the place of an instruction. -/
def Instruction.idle (i : Instruction) : Instruction where
  opcode := Catalog.builtinMarker .nop
  index := i.index
  part := i.part
  condition := none
  test := none
  operands := []
  offset := i.offset

/-- The instruction, or a NOP in its place if a headless scene passes over it. -/
def Instruction.muted (i : Instruction) : Instruction :=
  if i.opcode.skippedHeadless then i.idle else i

theorem Instruction.muted_of_skipped {i : Instruction} (h : i.opcode.skippedHeadless = true) :
    i.muted = i.idle := by
  rw [muted, if_pos h]

theorem Instruction.muted_of_kept {i : Instruction} (h : i.opcode.skippedHeadless = false) :
    i.muted = i := by
  simp [muted, h]

@[simp] theorem Instruction.part_muted (i : Instruction) : i.muted.part = i.part := by
  unfold muted
  split <;> rfl

/-- The program with every instruction that headless scenes pass over replaced by a NOP. -/
def Program.muted (p : Program) : Program :=
  { p with instructions := p.instructions.map Instruction.muted }

@[simp] theorem Program.getElem?_muted (p : Program) (k : Nat) :
    p.muted.instructions[k]? = p.instructions[k]?.map Instruction.muted := by
  simp [muted]

@[simp] theorem Program.size_muted (p : Program) :
    p.muted.instructions.size = p.instructions.size := by
  simp [muted]

def ActorPrograms.muted (a : ActorPrograms) : ActorPrograms := ⟨a.life.muted, a.moves.muted⟩

/-! ### Runs -/

def RunContext.muted {σ : Type} (cx : RunContext σ) : RunContext σ :=
  { cx with program := cx.program.muted, headless := false }

namespace Run

variable {σ : Type} {cx : RunContext σ}

theorem perform_idle (hheadless : cx.headless = false) (offset : Nat) (i : Instruction)
    (r : Run σ) : perform cx offset i.idle r = (.ok .advance, r) := by
  have hx : (Step.execute cx.host ⟨cx.script, offset, cx.time⟩ i.idle).run
      ⟨r.states, r.memory.callState offset, r.host⟩ =
        (.ok .advance, ⟨r.states, r.memory.callState offset, r.host⟩) := rfl
  rw [perform_of_execute (by rw [hheadless]; rfl) hx]
  rfl

/-- Passing over an instruction is executing a NOP in its place. -/
theorem perform_muted (hheadless : cx.headless = true) (offset : Nat) (i : Instruction)
    (r : Run σ) : perform cx.muted offset i.muted r = perform cx offset i r := by
  cases hskip : i.opcode.skippedHeadless with
  | true =>
      have hpassed : (cx.headless && i.opcode.skippedHeadless) = true := by
        rw [hheadless, hskip]
        rfl
      rw [Instruction.muted_of_skipped hskip, perform_idle rfl, perform_of_skipped hpassed]
  | false =>
      have hkept : (cx.headless && i.opcode.skippedHeadless) = false := by
        rw [hskip, Bool.and_false]
      have hkept' : (cx.muted.headless && i.opcode.skippedHeadless) = false := rfl
      rcases hx : (Step.execute cx.host ⟨cx.script, offset, cx.time⟩ i).run
        ⟨r.states, r.memory.callState offset, r.host⟩ with ⟨result, w⟩
      rw [Instruction.muted_of_kept hskip, perform_of_execute hkept hx]
      exact perform_of_execute hkept' hx

theorem step_muted (hheadless : cx.headless = true) (offset : Nat) (i : Instruction) (r : Run σ) :
    step cx.muted offset i.muted r = step cx offset i r := by
  have harrived : arrived cx.muted offset r = arrived cx offset r := rfl
  rw [step_eq, step_eq, harrived, perform_muted hheadless]
  rfl

/-- The run of the muted program mimics the headless run. -/
theorem mimics_muted (hheadless : cx.headless = true) : cx.muted.Mimics cx where
  script := rfl
  gasLimit := rfl
  size := cx.program.size_muted
  step {r offset i} hat := by
    refine ⟨i.muted, ?_, step_muted hheadless offset i r⟩
    change cx.program.muted.instructions[offset]? = _
    rw [Program.getElem?_muted, hat.2.2, Option.map_some]

end Run

/-! ### Scenes -/

namespace Scene

variable {σ : Type} {s : Scene}

def withHeadless (s : Scene) (on : Bool) : Scene :=
  { s with config := { s.config with headless := on } }

/-- The scene with every instruction that headless scenes pass over replaced by a NOP. -/
def muted (s : Scene) : Scene := { s with programs := s.programs.map ActorPrograms.muted }

/-- The muted scene, played in full. -/
def spelledOut (s : Scene) : Scene := s.muted.withHeadless false

/-- Muting as a rewriting of scenes. -/
def muting : Rewriting where
  program _ p := p.muted
  config config := { config with headless := false }

theorem apply_muting : muting.apply = spelledOut := by
  funext s
  have hprograms : (s.programs.mapIdx fun _ p => p.muted) = s.programs.map ActorPrograms.muted := by
    apply Array.ext_getElem?
    intro a
    rw [Array.getElem?_mapIdx, Array.getElem?_map]
  exact congrArg (fun programs : Array ActorPrograms =>
    { s with programs, config := { s.config with headless := false } }) hprograms

/-- Muting is a faithful rewriting of headless scenes. -/
theorem faithful_muting : muting.Faithful fun s => s.config.headless = true where
  lasting {s t} hblank hheadless := by
    have hconfig : t.blank.config = s.blank.config := by rw [hblank]
    exact (congrArg Config.headless hconfig).trans hheadless
  size _ p := p.size_muted
  part _ p k := by
    change p.muted.instructions[k]?.bind Instruction.part = _
    rw [Program.getElem?_muted]
    cases p.instructions[k]? <;> simp
  tracing _ := rfl
  mimics {σ s id p} host time hheadless _ := by
    have hcontext : (muting.apply s).context host id (muting.program id p) time =
        (s.context host id p time).muted := rfl
    rw [hcontext]
    exact Run.mimics_muted hheadless

/-- **A history** of a headless scene is one of the muted scene. -/
theorem play_muted (hheadless : s.config.headless = true) (h : σ) (requests : List (Request σ)) :
    s.spelledOut.play h requests =
      let (answers, t, g) := s.play h requests
      (answers, t.spelledOut, g) := by
  rw [← apply_muting]
  exact faithful_muting.play hheadless h requests

theorem told_muted (hheadless : s.config.headless = true) (h : σ) (requests : List (Request σ)) :
    s.spelledOut.told h requests = s.told h requests := by
  rw [← apply_muting]
  exact faithful_muting.told hheadless h requests

/-- **Headless play erases the commands of side scenes.** Let anything be asked of a scene, one
thing after the other, with any games: a headless scene answers, and is left, as the scene in which
every instruction that headless scenes pass over is replaced by a NOP at the same index, played in
full. The reports, numbers of steps, faults and visited instructions are the same, and so are the
states of the actors after every request; the states, scratch records, log, frame number and trace
at the end; and all that has passed between the scripts and the games. -/
theorem play_headless (s : Scene) (h : σ) (requests : List (Request σ)) :
    let headless := (s.withHeadless true).play h requests
    let full := (s.muted.withHeadless false).play h requests
    full.1 = headless.1 ∧ full.2.2 = headless.2.2 ∧
      full.2.1.states = headless.2.1.states ∧ full.2.1.memory = headless.2.1.memory ∧
      full.2.1.diagnostics = headless.2.1.diagnostics ∧ full.2.1.frame = headless.2.1.frame ∧
      full.2.1.trace = headless.2.1.trace ∧
      (s.muted.withHeadless false).told h requests = (s.withHeadless true).told h requests := by
  intro headless full
  have hfull : full = (headless.1, headless.2.1.spelledOut, headless.2.2) :=
    play_muted (s := s.withHeadless true) rfl h requests
  rw [hfull]
  exact ⟨rfl, rfl, rfl, rfl, rfl, rfl, rfl, told_muted (s := s.withHeadless true) rfl h requests⟩

end Scene

end SceneScript
