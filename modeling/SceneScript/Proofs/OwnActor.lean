import SceneScript.Proofs.Rewriting

/-! # Commands that name the actor of their own script

Five commands of the engine come in two forms. The plain one works on the actor whose script runs,
the other one names an actor. An actor whose life script names itself could as well use the plain
form.

* `Operation.plain?`, `Opcode.PlainOf`, `Instruction.plain`: the plain form of an instruction.
* `Step.execute_plain`, `Run.step_plain`: in the life script of the actor it names, an instruction
  does what its plain form does.
* `Scene.play_plain`: nothing that is asked of a scene tells the two forms apart. -/

namespace SceneScript

/-! ### Plain forms -/

/-- The operation that does to the actor of the running script what this one does to the actor it
names. -/
def Operation.plain? : Operation → Option Operation
  | .saveBehaviourObj => some .saveBehaviour
  | .restoreBehaviourObj => some .restoreBehaviour
  | .setTrackObj => some .setTrack
  | .stopCurrentTrackObj => some .stopCurrentTrack
  | .restoreLastTrackObj => some .restoreLastTrack
  | _ => none

/-- `d` is the plain form of the opcode `e`, and scenes treat its instructions alike otherwise. -/
structure Opcode.PlainOf (d e : Opcode) : Prop where
  operation : e.operation.plain? = some d.operation
  needsCallState : d.needsCallState = e.needsCallState
  skippedHeadless : d.skippedHeadless = e.skippedHeadless

/-- The operations that come in two forms. -/
def Operation.twoForms : List Operation :=
  [.saveBehaviour, .saveBehaviourObj, .restoreBehaviour, .restoreBehaviourObj, .setTrack,
    .setTrackObj, .stopCurrentTrack, .stopCurrentTrackObj, .restoreLastTrack, .restoreLastTrackObj]

theorem Operation.mem_twoForms {o p : Operation} (h : o.plain? = some p) :
    o ∈ twoForms ∧ p ∈ twoForms := by
  cases o <;> cases h <;> decide

/-- In the standard catalog none of them keeps scratch records or is passed over in headless
scenes. -/
theorem standard_twoForms : ∀ d ∈ Catalog.standard.life, d.operation ∈ Operation.twoForms →
    d.needsCallState = false ∧ d.skippedHeadless = false := by
  decide +kernel

theorem standard_plainOf {d e : Opcode} (hd : d ∈ Catalog.standard.life)
    (he : e ∈ Catalog.standard.life) (hoperation : e.operation.plain? = some d.operation) :
    d.PlainOf e := by
  obtain ⟨hnamed, hown⟩ := Operation.mem_twoForms hoperation
  obtain ⟨hcallState, hskipped⟩ := standard_twoForms d hd hown
  obtain ⟨hcallState', hskipped'⟩ := standard_twoForms e he hnamed
  exact ⟨hoperation, by rw [hcallState, hcallState'], by rw [hskipped, hskipped']⟩

/-- The instruction names the actor, and the place to go to if it sends it to one. -/
structure Instruction.AimedAt (i : Instruction) (a : Nat) : Prop where
  actor : i.operands[0]? = some (.actor a)
  target : i.operation = .setTrackObj → ∃ t, i.operands[1]? = some (.target t)

/-- The instruction with a plain opcode, without the actor it names. -/
def Instruction.plain (d : Opcode) (i : Instruction) : Instruction :=
  { i with opcode := d, operands := i.operands.tail }

def Program.plainAt (k : Nat) (d : Opcode) (p : Program) : Program :=
  { p with instructions := p.instructions.modify k (Instruction.plain d) }

/-! ### Executing -/

namespace Step

variable {σ : Type}

theorem run_actorOf {i : Instruction} {o : Option Operand} {a : Nat} {w : World σ}
    (ho : o = some (.actor a)) (ha : a < w.states.size) : (actorOf i o).run w = (.ok a, w) := by
  change (demand i (actorOperand w.states.size o)).run w = _
  rw [ho, actorOperand, if_pos ha]
  rfl

theorem run_restoreBehaviorOf_own {site : Site} {i : Instruction} {a : Nat} {w : World σ}
    (hsite : site.script = .life a) (hactor : (actorOf i i.operands[0]?).run w = (.ok a, w)) :
    (restoreBehaviorOf site i).run w = (restoreBehavior site).run w := by
  have hget : (get : Exec σ (World σ)).run w = (.ok w, w) := rfl
  have hown : (own site).run w = (.ok (w.actor a).life, w) := by
    change (Except.ok ((w.actor site.script.actor).get site.script.kind), w) = _
    rw [hsite]
    rfl
  rw [restoreBehaviorOf, restoreBehavior, Exec.run_bind hactor, Exec.run_bind hget,
    Exec.run_bind hown]
  cases (w.actor a).life.savedOffset with
  | none => rfl
  | some saved => simp only [if_pos hsite.symm]

/-- In the life script of the actor it names, an instruction does what its plain form does. -/
theorem execute_plain (host : Host σ) {site : Site} {i : Instruction} {d : Opcode} {a : Nat}
    (hsite : site.script = .life a) (haimed : i.AimedAt a) (hplain : d.PlainOf i.opcode)
    {w : World σ} (ha : a < w.states.size) :
    (execute host site (i.plain d)).run w = (execute host site i).run w := by
  have hactor : (actorOf i i.operands[0]?).run w = (.ok a, w) := run_actorOf haimed.actor ha
  have hnamed : ∀ f : Nat → Exec σ Flow,
      (actorOf i i.operands[0]? >>= f).run w = (f a).run w := fun f => Exec.run_bind hactor
  have hoperation : i.operation.plain? = some (i.plain d).operation := hplain.operation
  unfold execute
  cases ho : i.operation with
  | saveBehaviourObj =>
      rw [ho] at hoperation
      rw [← Option.some.inj hoperation]
      dsimp only
      rw [hnamed, modifyOwn, hsite]
      rfl
  | restoreBehaviourObj =>
      rw [ho] at hoperation
      rw [← Option.some.inj hoperation]
      exact (run_restoreBehaviorOf_own hsite hactor).symm
  | setTrackObj =>
      obtain ⟨t, ht⟩ := haimed.target ho
      have htarget : (i.plain d).targetAt 0 = i.targetAt 1 := by
        unfold Instruction.targetAt Instruction.plain
        rw [List.getElem?_tail]
      rw [ho] at hoperation
      rw [← Option.some.inj hoperation]
      dsimp only
      rw [setTrackOf, hnamed, htarget, hsite, Instruction.targetAt, ht]
      rfl
  | stopCurrentTrackObj =>
      rw [ho] at hoperation
      rw [← Option.some.inj hoperation]
      dsimp only
      rw [hnamed, hsite]
      rfl
  | restoreLastTrackObj =>
      rw [ho] at hoperation
      rw [← Option.some.inj hoperation]
      dsimp only
      rw [hnamed, hsite]
      rfl
  | _ =>
      rw [ho] at hoperation
      cases hoperation

end Step

/-! ### Runs -/

namespace Run

variable {σ : Type} {cx : RunContext σ} {i : Instruction} {d : Opcode} {a : Nat}

theorem perform_plain (hscript : cx.script = .life a) (haimed : i.AimedAt a)
    (hplain : d.PlainOf i.opcode) (offset : Nat) {r : Run σ} (ha : a < r.states.size) :
    perform cx offset (i.plain d) r = perform cx offset i r := by
  have hskipped : (i.plain d).opcode.skippedHeadless = i.opcode.skippedHeadless :=
    hplain.skippedHeadless
  have hcallState : (i.plain d).opcode.needsCallState = i.opcode.needsCallState :=
    hplain.needsCallState
  have hexecute : (Step.execute cx.host ⟨cx.script, offset, cx.time⟩ (i.plain d)).run
      ⟨r.states, r.memory.callState offset, r.host⟩ =
        (Step.execute cx.host ⟨cx.script, offset, cx.time⟩ i).run
          ⟨r.states, r.memory.callState offset, r.host⟩ :=
    Step.execute_plain cx.host hscript haimed hplain ha
  unfold perform
  rw [hskipped, hcallState]
  dsimp only
  rw [hexecute]

theorem step_plain (hscript : cx.script = .life a) (haimed : i.AimedAt a)
    (hplain : d.PlainOf i.opcode) (offset : Nat) {r : Run σ} (ha : a < r.states.size) :
    step cx offset (i.plain d) r = step cx offset i r := by
  have ha' : a < (arrived cx offset r).states.size := by
    rw [arrived, entered, size_modifyScript]
    exact ha
  rw [step_eq, step_eq, perform_plain hscript haimed hplain offset ha']

/-- With the plain form in its place, a life script runs as it did. -/
theorem mimics_plainAt {k : Nat} (hscript : cx.script = .life a)
    (hi : cx.program.instructions[k]? = some i) (haimed : i.AimedAt a)
    (hplain : d.PlainOf i.opcode) :
    RunContext.Mimics { cx with program := cx.program.plainAt k d } cx where
  script := rfl
  gasLimit := rfl
  size := Array.size_modify
  step {r offset j} hat := by
    obtain ⟨hrun, -, hj⟩ := hat
    by_cases hk : k = offset
    · subst hk
      obtain rfl : i = j := Option.some.inj (hi.symm.trans hj)
      have ha : cx.script.actor < r.states.size := actor_lt_of_running hrun
      rw [hscript] at ha
      refine ⟨i.plain d, ?_, step_plain hscript haimed hplain k ha⟩
      rw [Program.plainAt, Array.getElem?_modify, if_pos rfl, hi, Option.map_some]
    · refine ⟨j, ?_, rfl⟩
      rw [Program.plainAt, Array.getElem?_modify, if_neg hk, hj]

end Run

/-! ### Scenes -/

namespace Scene

variable {σ : Type} {s : Scene} {a k : Nat} {d : Opcode}

def plainAt (a k : Nat) (d : Opcode) (s : Scene) : Scene :=
  { s with programs := s.programs.modify a fun p => { p with life := p.life.plainAt k d } }

/-- Using the plain form as a rewriting of scenes. -/
def usingPlain (a k : Nat) (d : Opcode) : Rewriting where
  program id p := if id = .life a then p.plainAt k d else p

theorem apply_usingPlain (a k : Nat) (d : Opcode) : (usingPlain a k d).apply = plainAt a k d := by
  funext s
  have hprograms : (s.programs.mapIdx fun b p =>
      (⟨(usingPlain a k d).program (.life b) p.life, (usingPlain a k d).program (.move b) p.moves⟩ :
        ActorPrograms)) =
      s.programs.modify a fun p => { p with life := p.life.plainAt k d } := by
    apply Array.ext_getElem?
    intro b
    rw [Array.getElem?_mapIdx, Array.getElem?_modify]
    by_cases hb : a = b
    · subst hb
      rw [if_pos rfl]
      cases s.programs[a]? <;> simp [usingPlain, ScriptId.life, ScriptId.move]
    · rw [if_neg hb]
      cases s.programs[b]? <;> simp [usingPlain, ScriptId.life, ScriptId.move, Ne.symm hb]
  exact congrArg (fun programs : Array ActorPrograms => { s with programs }) hprograms

/-- Where the plain form does what the instruction does, using it is a faithful rewriting. -/
theorem faithful_usingPlain {program : Program} {i : Instruction}
    (hi : program.instructions[k]? = some i) (haimed : i.AimedAt a) (hplain : d.PlainOf i.opcode) :
    (usingPlain a k d).Faithful fun s => s.program? (.life a) = some program where
  lasting {s t} hblank hs := by
    rw [← hs]
    change t.blank.program? (.life a) = s.blank.program? (.life a)
    rw [hblank]
  size id p := by
    change (if id = .life a then p.plainAt k d else p).instructions.size = _
    split
    · exact Array.size_modify
    · rfl
  part id p n := by
    change (if id = .life a then p.plainAt k d else p).instructions[n]?.bind Instruction.part = _
    split
    · rw [Program.plainAt, Array.getElem?_modify]
      split
      · cases p.instructions[n]? <;> rfl
      · rfl
    · rfl
  tracing _ := rfl
  mimics {σ s id p} host time hs hp := by
    by_cases hid : id = .life a
    · subst hid
      obtain rfl : program = p := Option.some.inj (hs.symm.trans hp)
      have hcontext : ((usingPlain a k d).apply s).context host (.life a)
          ((usingPlain a k d).program (.life a) program) time =
          { s.context host (.life a) program time with program := program.plainAt k d } := by
        unfold usingPlain
        simp only [if_true]
        rfl
      rw [hcontext]
      exact Run.mimics_plainAt rfl hi haimed hplain
    · have hcontext : ((usingPlain a k d).apply s).context host id
          ((usingPlain a k d).program id p) time = s.context host id p time := by
        unfold usingPlain
        simp only [if_neg hid]
        rfl
      rw [hcontext]
      exact .refl _

/-- **A command that names the actor of its own script is its plain form.** The opcodes of the
standard catalog that come in two forms are treated alike otherwise. In any scene, let an instruction
of the life script of an actor name this actor, and a place in its move script to go to if it sends
it to one. Put the plain form at its index. Whatever is asked of the scene, one thing after the other
and with any games, the answers are the same: the reports, numbers of steps, faults and visited
instructions. So are the states of the actors after every request; the states, scratch records, log,
frame number and trace at the end; and all that has passed between the scripts and the games. -/
theorem play_plain :
    (∀ d ∈ Catalog.standard.life, ∀ e ∈ Catalog.standard.life,
      e.operation.plain? = some d.operation → d.PlainOf e) ∧
    ∀ (s : Scene) (a k : Nat) (program : Program) (i : Instruction) (d : Opcode),
      s.program? (.life a) = some program → program.instructions[k]? = some i → i.AimedAt a →
      d.PlainOf i.opcode →
      ∀ {σ : Type} (h : σ) (requests : List (Request σ)),
        let named := s.play h requests
        let plain := (s.plainAt a k d).play h requests
        plain.1 = named.1 ∧ plain.2.2 = named.2.2 ∧
          plain.2.1.states = named.2.1.states ∧ plain.2.1.memory = named.2.1.memory ∧
          plain.2.1.diagnostics = named.2.1.diagnostics ∧ plain.2.1.frame = named.2.1.frame ∧
          plain.2.1.trace = named.2.1.trace ∧
          (s.plainAt a k d).told h requests = s.told h requests := by
  refine ⟨fun d hd e he hoperation => standard_plainOf hd he hoperation, ?_⟩
  intro s a k program i d hprogram hi haimed hplain σ h requests named plain
  have hfaithful := faithful_usingPlain hi haimed hplain
  have hplay := hfaithful.play hprogram h requests
  have htold := hfaithful.told hprogram h requests
  rw [apply_usingPlain] at hplay htold
  have hsame : plain = (named.1, named.2.1.plainAt a k d, named.2.2) := hplay
  rw [hsame]
  exact ⟨rfl, rfl, rfl, rfl, rfl, rfl, rfl, htold⟩

/-- A life script that saves its behavior and sends itself back to it. The command that sends it back
names its own actor; with the plain form in its place, two frames go alike, and leave the script
about to start at its behavior. -/
theorem play_plain_restored :
    let source : SceneSource := { actors := [{ life := [0x8B, 0, 0x8C, 0, 0] }] }
    let s := ofCompiled (compileScene .standard source) {}
    let d : Opcode := .engine 0x79 "RESTORE_BEHAVIOUR" .restoreBehaviour []
    let requests : List (Request Unit) := [.frame .quiet {}, .frame .quiet {}]
    let named := s.play () requests
    let plain := (s.plainAt 0 2 d).play () requests
    ((((s.plainAt 0 2 d).program? (.life 0)).bind fun p => p.instructions[2]?).map
      Instruction.display) = some "2 RESTORE_BEHAVIOUR" ∧
      plain.1 = named.1 ∧ (scriptAt plain.2.1.states (.life 0)).reentry = some 0 := by
  intro source s d requests named plain
  let e : Opcode := .engine 0x8C "RESTORE_BEHAVIOUR_OBJ" .restoreBehaviourObj [.actor]
  have hinstruction : ((s.program? (.life 0)).bind fun p => p.instructions[2]?).map
      (fun i => (i.opcode, i.operands)) = some (e, [.actor 0]) := by decide +kernel
  obtain ⟨i, hi, hparts⟩ := Option.map_eq_some_iff.mp hinstruction
  obtain ⟨program, hprogram, hi⟩ := Option.bind_eq_some_iff.mp hi
  obtain ⟨hopcode, hoperands⟩ := Prod.mk.inj hparts
  have haimed : i.AimedAt 0 := by
    refine ⟨by rw [hoperands]; rfl, ?_⟩
    intro htrack
    rw [Instruction.operation, hopcode] at htrack
    cases htrack
  have hplain : d.PlainOf i.opcode := by
    rw [hopcode]
    exact play_plain.1 d (by decide +kernel) e (by decide +kernel) rfl
  obtain ⟨hanswers, -, hstates, -⟩ :=
    play_plain.2 s 0 2 program i d hprogram hi haimed hplain () requests
  refine ⟨by decide +kernel, hanswers, ?_⟩
  rw [hstates]
  decide +kernel

end Scene

end SceneScript
