import SceneScript.Proofs.Runs

/-! # Stored positions

The state of a script stores positions in its program: where to resume, the behavior that runs, the
one to run next, the track that is active and a position kept for later. `ScriptState.Valid` says
that they are positions of the right instructions. It is an invariant of scenes in play:

* `Effect.valid`: what an instruction changes stays valid, in whatever script.
* `InPlay.step`, `InPlay.steps`: so does a step, and a run.
* `Reachable.resting`: so does every operation on a scene, from the compiled scene on, as long as
  the game only ends scripts (`Host.OnlyEnds`).

A script therefore runs off its program only behind the last instruction
(`valid_of_reachable`). -/

namespace SceneScript

/-! ### Valid positions -/

/-- Instruction `k` of a program is of an operation. -/
def Program.HasAt (p : Program) (k : Nat) (o : Operation) : Prop :=
  ∃ i, p.instructions[k]? = some i ∧ i.operation = o

theorem Program.HasAt.lt {p : Program} {k : Nat} {o : Operation} (h : p.HasAt k o) :
    k < p.instructions.size := by
  obtain ⟨i, hi, -⟩ := h
  exact (Array.getElem?_eq_some_iff.mp hi).1

/-- The positions in the state of a script are positions of its program: those of behaviors in a
life script and those of tracks in a move script are of the instructions that declare them. -/
structure ScriptState.Valid (p : Program) (kind : ScriptKind) (s : ScriptState) : Prop where
  reentry : ∀ k, s.reentry = some k → k < p.instructions.size
  behaviorOffset : ∀ k, s.behaviorOffset = some k → k < p.instructions.size
  nextBehavior : ∀ k, s.nextBehavior = some k → k < p.instructions.size
  savedOffset : ∀ k, s.savedOffset = some k → k < p.instructions.size
  trackOffset : ∀ k, s.trackOffset = some k → k < p.instructions.size
  behavior : kind = .life → ∀ k, s.behaviorOffset = some k → p.HasAt k .behaviour
  savedBehavior : kind = .life → ∀ k, s.savedOffset = some k → p.HasAt k .behaviour
  declared : kind = .move → ∀ k, s.trackOffset = some k → p.HasAt k .track
  savedTrack : kind = .move → ∀ k, s.savedOffset = some k → p.HasAt k .track
  track : kind = .move → ∀ t, s.track = some t → ∃ k i, s.trackOffset = some k ∧
    p.instructions[k]? = some i ∧ i.operation = .track ∧ i.operands[0]? = some (.number t)

namespace ScriptState

variable {p : Program} {kind : ScriptKind} {s : ScriptState}

theorem Valid.setReentry (h : s.Valid p kind) {r : Option Nat}
    (hr : ∀ k, r = some k → k < p.instructions.size) : { s with reentry := r }.Valid p kind :=
  { h with reentry := hr }

theorem Valid.terminate (h : s.Valid p kind) : s.terminate.Valid p kind :=
  { h with reentry := by simp [ScriptState.terminate] }

/-- The behavior of a life script may be remembered. -/
theorem Valid.saveBehavior (h : s.Valid p .life) : (Step.saveBehavior s).Valid p .life :=
  { h with
    savedOffset := h.behaviorOffset
    savedBehavior := h.behavior
    savedTrack := by simp }

/-- The track of a move script may be remembered. -/
theorem Valid.stopTrack (h : s.Valid p .move) : (Step.stopTrack s).Valid p .move :=
  { h with
    reentry := by simp [Step.stopTrack]
    savedOffset := h.trackOffset
    savedBehavior := by simp
    savedTrack := h.declared }

theorem Valid.restoreTrack (h : s.Valid p kind) : (Step.restoreTrack s).Valid p kind := by
  unfold Step.restoreTrack
  split
  · next saved hsaved =>
      refine h.setReentry ?_
      intro k hk
      obtain rfl := Option.some.inj hk
      exact h.savedOffset saved hsaved
  · exact h

/-- A behavior starts where it is declared. -/
theorem Valid.enterBehavior (h : s.Valid p kind) {k : Nat} (hk : p.HasAt k .behaviour) :
    { s with behaviorOffset := some k }.Valid p kind :=
  { h with
    behaviorOffset := by
      intro k' hk'
      obtain rfl := Option.some.inj hk'
      exact hk.lt
    behavior := by
      intro _ k' hk'
      obtain rfl := Option.some.inj hk'
      exact hk }

/-- A track is declared where it says its number. -/
theorem Valid.declareTrack (h : s.Valid p kind) {k : Nat} {n : Int} {i : Instruction}
    (hi : p.instructions[k]? = some i) (hop : i.operation = .track)
    (hn : i.operands[0]? = some (.number n)) :
    { s with track := some n, trackOffset := some k }.Valid p kind :=
  { h with
    trackOffset := by
      intro k' hk'
      obtain rfl := Option.some.inj hk'
      exact (Array.getElem?_eq_some_iff.mp hi).1
    declared := by
      intro _ k' hk'
      obtain rfl := Option.some.inj hk'
      exact ⟨i, hi, hop⟩
    track := by
      intro _ t ht
      obtain rfl := Option.some.inj ht
      exact ⟨k, i, rfl, hi, hop, hn⟩ }

theorem Valid.clearTrack (h : s.Valid p kind) : { s with track := none }.Valid p kind :=
  { h with track := by simp }

theorem Valid.setNextBehavior (h : s.Valid p kind) {r : Option Nat}
    (hr : ∀ k, r = some k → k < p.instructions.size) : { s with nextBehavior := r }.Valid p kind :=
  { h with nextBehavior := hr }

end ScriptState

/-! ### What an instruction keeps valid -/

/-- Where a flow leads is inside a program of `count` instructions. -/
def Flow.Inside (count : Nat) : Flow → Prop
  | .jump t | .yieldTo t => t < count
  | .advance | .suspend | .terminate => True

/-- The states of all scripts are valid. -/
def StatesValid (program? : ScriptId → Option Program) (states : Array ActorState) : Prop :=
  ∀ id p, program? id = some p → (scriptAt states id).Valid p id.kind

theorem StatesValid.modifyScript {program? : ScriptId → Option Program}
    {states : Array ActorState} {script : ScriptId} {f : ScriptState → ScriptState}
    (h : StatesValid program? states)
    (hf : ∀ p, program? script = some p → (f (scriptAt states script)).Valid p script.kind) :
    StatesValid program? (modifyScript states script f) := by
  intro id p hp
  rcases scriptAt_modifyScript_cases states script f id with he | ⟨rfl, he⟩
  · rw [he]
    exact h id p hp
  · rw [he]
    exact hf p hp

section
variable {program? : ScriptId → Option Program} {size? : ScriptId → Option Nat} {count : Nat}
  {site : Site} {i : Instruction} {states : Array ActorState} {p : Program}

/-- A target leads into the program of its destination. -/
theorem Instruction.Sound.target_lt (hsound : i.Sound size? count site.script)
    (hsize : ∀ id p, program? id = some p → size? id = some p.instructions.size) {k t : Nat}
    {dest : ScriptId} (hk : i.operation.targetSlot? = some k)
    (ht : i.operands[k]? = some (.target t)) (hd : i.destination? site.script = some dest)
    (hp : program? dest = some p) : t < p.instructions.size := by
  rcases hsound.target k hk with ⟨n, hn⟩ | ⟨t', dest', size, ht', hd', hsize', hlt⟩
  · rw [ht] at hn
    cases hn
  · rw [ht] at ht'
    rw [hd] at hd'
    cases ht'
    cases hd'
    rw [hsize dest p hp] at hsize'
    cases hsize'
    exact hlt

theorem Instruction.destination?_own (h : Link.crossReference? i.operation = none)
    (id : ScriptId) : i.destination? id = some id := by
  rw [Instruction.destination?, h]

theorem Effect.flow_inside {flow : Flow} {script : ScriptId} {f : ScriptState → ScriptState}
    (he : Effect site i states flow script f) (hsound : i.Sound size? count site.script)
    (hsize : ∀ id p, program? id = some p → size? id = some p.instructions.size)
    (hp : program? site.script = some p) (hi : p.instructions[site.offset]? = some i)
    (hvalid : StatesValid program? states) : flow.Inside p.instructions.size := by
  have hown := hvalid site.script p hp
  cases he with
  | jump hk hx ht => exact hsound.target_lt hsize hk ht (Instruction.destination?_own hx _) hp
  | goto hop ht =>
      exact hsound.target_lt hsize (by rw [hop]; rfl) ht
        (Instruction.destination?_own (by rw [hop]; rfl) _) hp
  | endBehavior =>
      have hlt := (Array.getElem?_eq_some_iff.mp hi).1
      change ((site.own states).nextBehavior.or (site.own states).behaviorOffset).getD 0 < _
      cases hn : (site.own states).nextBehavior with
      | some k => exact hown.nextBehavior k hn
      | none =>
          cases hb : (site.own states).behaviorOffset with
          | some k => exact hown.behaviorOffset k hb
          | none => exact Nat.lt_of_le_of_lt (Nat.zero_le _) hlt
  | returnBehavior hs => exact hown.savedOffset _ hs
  | _ => trivial

/-- What an instruction changes in a script stays valid there. -/
theorem Effect.valid {flow : Flow} {script : ScriptId} {f : ScriptState → ScriptState}
    (he : Effect site i states flow script f) (hsound : i.Sound size? count site.script)
    (hsize : ∀ id p, program? id = some p → size? id = some p.instructions.size)
    (hi : ∀ p, program? site.script = some p → p.instructions[site.offset]? = some i)
    (hvalid : StatesValid program? states) (hp : program? script = some p) :
    (f (scriptAt states script)).Valid p script.kind := by
  have hscript := hvalid script p hp
  have hreentry : ∀ {t : Nat}, t < p.instructions.size →
      { scriptAt states script with reentry := some t }.Valid p script.kind := by
    intro t hlt
    refine hscript.setReentry ?_
    intro k hk
    obtain rfl := Option.some.inj hk
    exact hlt
  cases he with
  | advance | jump | goto | stop | wait | returnBehavior => exact hscript
  | openSwitch | closeSwitch => exact { hscript with }
  | enterBehavior hop => exact hscript.enterBehavior ⟨i, hi p hp, hop⟩
  | chooseBehavior hop ht =>
      refine hscript.setNextBehavior ?_
      intro k hk
      obtain rfl := Option.some.inj hk
      exact hsound.target_lt hsize (by rw [hop]; rfl) ht
        (Instruction.destination?_own (by rw [hop]; rfl) _) hp
  | endBehavior => exact hscript.setNextBehavior (by simp)
  | @sendBehavior a t hop ha ht =>
      refine hreentry (hsound.target_lt hsize (by rw [hop]; rfl) ht ?_ hp)
      simp [Instruction.destination?, hop, Link.crossReference?, ha, Operand.actor?, ScriptId.life]
  | saveBehavior hop =>
      have hlife : site.script.kind = .life := hsound.home (by rw [hop]; rfl)
      rw [hlife] at hscript ⊢
      exact hscript.saveBehavior
  | saveBehaviorOf => exact hscript.saveBehavior
  | resumeBehavior _ _ hs => exact hreentry (hscript.savedOffset _ hs)
  | declareTrack hop hn => exact hscript.declareTrack (hi p hp) hop hn
  | sendTrack hop ht =>
      refine hreentry (hsound.target_lt hsize (by rw [hop]; rfl) ht ?_ hp)
      simp [Instruction.destination?, hop, Link.crossReference?, ScriptId.move]
  | sendTrackOf hop ha ht =>
      refine hreentry (hsound.target_lt hsize (by rw [hop]; rfl) ht ?_ hp)
      simp [Instruction.destination?, hop, Link.crossReference?, ha, Operand.actor?, ScriptId.move]
  | stopTrack | stopTrackOf => exact hscript.stopTrack
  | resumeTrack | resumeTrackOf => exact hscript.restoreTrack

end

/-! ### What a run keeps valid -/

/-- A game that steers a script on, stops it for now or for good, and changes the states of actors
only by ending their scripts. -/
structure Host.OnlyEnds {σ : Type} (host : Host σ) : Prop where
  flow : ∀ call h flow, (host.execute call h).1.flow = .ok flow →
    flow = .advance ∨ flow = .suspend ∨ flow = .terminate
  state : ∀ call h kind, (host.execute call h).1.actor.get kind = call.actor.get kind ∨
    (host.execute call h).1.actor.get kind = (call.actor.get kind).terminate

section
variable {σ : Type} {program? : ScriptId → Option Program} {size? : ScriptId → Option Nat}
  {count : Nat} {p : Program}

/-- What comes of an instruction is valid, and no script runs that did not. -/
theorem Acts.valid {host : Host σ} (hhost : host.OnlyEnds) {site : Site} {i : Instruction}
    {states : Array ActorState} {c : CallState} {result : Except Fault Flow} {w : World σ}
    (hacts : Acts host site i states c result w) (hsound : i.Sound size? count site.script)
    (hsize : ∀ id p, program? id = some p → size? id = some p.instructions.size)
    (hp : program? site.script = some p) (hi : p.instructions[site.offset]? = some i)
    (hvalid : StatesValid program? states) :
    StatesValid program? w.states ∧
      (∀ id, (scriptAt w.states id).running = true → (scriptAt states id).running = true) ∧
      ∀ flow, result = .ok flow → flow.Inside p.instructions.size := by
  cases hacts with
  | @effect flow script f after he hstates _ =>
      have hi' : ∀ q, program? site.script = some q → q.instructions[site.offset]? = some i := by
        intro q hq
        rw [hp] at hq
        cases hq
        exact hi
      rw [hstates]
      refine ⟨hvalid.modifyScript fun q hq => he.valid hsound hsize hi' hvalid hq, ?_, ?_⟩
      · intro id hrun
        rcases scriptAt_modifyScript_cases states script f id with h | ⟨rfl, h⟩
        · rwa [h] at hrun
        · rwa [h, (he.keeps _).1] at hrun
      · intro flow' hflow
        cases hflow
        exact he.flow_inside hsound hsize hp hi hvalid
  | fault _ hstates _ =>
      rw [hstates]
      exact ⟨hvalid, fun _ h => h, by simp⟩
  | @hosted call h after _ hcall hstates =>
      have hscript : ∀ id, scriptAt w.states id = scriptAt states id ∨
          scriptAt w.states id = (scriptAt states id).terminate := by
        intro id
        rw [hstates]
        rcases scriptAt_modify_cases states site.script.actor
          (fun _ => (host.execute call h).1.actor) id with he | ⟨ha, he⟩
        · exact .inl he
        · rw [he]
          have := hhost.state call h id.kind
          rwa [hcall, ← ha] at this
      refine ⟨?_, ?_, ?_⟩
      · intro id q hq
        rcases hscript id with he | he
        · rw [he]
          exact hvalid id q hq
        · rw [he]
          exact (hvalid id q hq).terminate
      · intro id hrun
        rcases hscript id with he | he
        · rwa [he] at hrun
        · rw [he] at hrun
          cases hrun
      · intro flow hflow
        cases hreply : (host.execute call h).1.flow with
        | error e =>
            rw [hreply] at hflow
            cases hflow
        | ok flow' =>
            rw [hreply] at hflow
            cases hflow
            rcases hhost.flow call h flow hreply with rfl | rfl | rfl <;> trivial

theorem ScriptState.Valid.apply {kind : ScriptKind} {s : ScriptState} (h : s.Valid p kind)
    {flow : Flow} {offset : Nat} (hflow : flow.Inside p.instructions.size)
    (hlt : offset < p.instructions.size) : (flow.apply offset s).Valid p kind := by
  have hreentry : ∀ {t : Nat}, t < p.instructions.size →
      { s with reentry := some t, running := false }.Valid p kind := by
    intro t ht
    have hr : { s with reentry := some t }.Valid p kind := by
      refine h.setReentry ?_
      intro k hk
      obtain rfl := Option.some.inj hk
      exact ht
    exact { hr with }
  cases flow with
  | advance => exact { h with }
  | jump t => exact { h with }
  | suspend => exact hreentry hlt
  | yieldTo t => exact hreentry hflow
  | terminate => exact h.terminate

/-- A run under way: all positions are valid, no other script runs, and the script that runs is at
an instruction, or right behind the last one after executing it. -/
structure InPlay (cx : RunContext σ) (program? : ScriptId → Option Program) (r : Run σ) :
    Prop where
  valid : StatesValid program? r.states
  others : ∀ id, id ≠ cx.script → (scriptAt r.states id).running = false
  own : (scriptAt r.states cx.script).running = true →
    (scriptAt r.states cx.script).offset < cx.program.instructions.size ∨
      (scriptAt r.states cx.script).offset = cx.program.instructions.size ∧
        r.visited.back? = some (cx.program.instructions.size - 1)

section
variable {cx : RunContext σ} {r s : Run σ}

theorem InPlay.entered (h : InPlay cx program? r) :
    StatesValid program? (Run.entered cx r) ∧
      ∀ id, (scriptAt (Run.entered cx r) id).running = (scriptAt r.states id).running := by
  refine ⟨h.valid.modifyScript fun q hq => (h.valid _ q hq).setReentry (by simp), ?_⟩
  intro id
  rcases scriptAt_modifyScript_cases r.states cx.script (fun s => { s with reentry := none }) id
    with he | ⟨rfl, he⟩
  · rw [Run.entered, he]
  · rw [Run.entered, he]

/-- A step, with or without a fault, keeps positions valid and starts no other script. -/
theorem InPlay.step_states (h : InPlay cx program? r) (hhost : cx.host.OnlyEnds) {offset : Nat}
    {i : Instruction} (hat : Run.At cx r offset i) (hsound : i.Sound size? count cx.script)
    (hsize : ∀ id p, program? id = some p → size? id = some p.instructions.size)
    (hp : program? cx.script = some cx.program) :
    StatesValid program? (Run.step cx offset i r).2.states ∧
      ∀ id, id ≠ cx.script → (scriptAt (Run.step cx offset i r).2.states id).running = false := by
  obtain ⟨hentered, hrunning⟩ := h.entered
  obtain ⟨c, result, w, hacts, -, hstates⟩ := Run.step_acts cx offset i r
  obtain ⟨hvalid, hrun, hflow⟩ := hacts.valid hhost hsound hsize hp hat.2.2 hentered
  have hothers : ∀ id, id ≠ cx.script → (scriptAt w.states id).running = false := by
    intro id hne
    have hr := hrun id
    rw [hrunning id, h.others id hne] at hr
    simpa using hr
  rw [hstates]
  cases result with
  | error f => exact ⟨hvalid, hothers⟩
  | ok flow =>
      have hlt := (Array.getElem?_eq_some_iff.mp hat.2.2).1
      refine ⟨hvalid.modifyScript ?_, ?_⟩
      · intro q hq
        rw [hp] at hq
        cases hq
        exact (hvalid _ _ hp).apply (hflow flow rfl) hlt
      · intro id hne
        rw [scriptAt_modifyScript_of_ne hne]
        exact hothers id hne

/-- A script that still runs after a step is at an instruction again, or right behind the last. -/
theorem InPlay.step (h : InPlay cx program? r) (hhost : cx.host.OnlyEnds) {offset : Nat}
    {i : Instruction} (hat : Run.At cx r offset i) (hsound : i.Sound size? count cx.script)
    (hsize : ∀ id p, program? id = some p → size? id = some p.instructions.size)
    (hp : program? cx.script = some cx.program)
    (hstep : Run.step cx offset i r = (.ok (), s)) : InPlay cx program? s := by
  obtain ⟨hstates, hothers⟩ := h.step_states hhost hat hsound hsize hp
  have hvisited := Run.visited_step cx offset i r
  obtain ⟨c, result, w, hacts, hresult, hs⟩ := Run.step_acts cx offset i r
  obtain ⟨-, -, hflow⟩ := hacts.valid hhost hsound hsize hp hat.2.2 h.entered.1
  rw [hstep] at hstates hothers hvisited hresult hs
  refine ⟨hstates, hothers, ?_⟩
  intro hrun
  cases result with
  | error f => cases hresult
  | ok flow =>
      have hlt := (Array.getElem?_eq_some_iff.mp hat.2.2).1
      have hin : cx.script.actor < w.states.size := by
        rw [hacts.size, Run.entered, size_modifyScript]
        exact actor_lt_of_running hat.1
      rw [hs, scriptAt_modifyScript_self hin] at hrun ⊢
      have hinside := hflow flow rfl
      cases flow with
      | advance =>
          change offset + 1 < _ ∨ offset + 1 = _ ∧ _
          rcases Nat.lt_or_ge (offset + 1) cx.program.instructions.size with hmore | hlast
          · exact .inl hmore
          · refine .inr ⟨by omega, ?_⟩
            rw [hvisited, Array.back?_push]
            congr 1
            omega
      | jump t => exact .inl hinside
      | suspend => cases hrun
      | yieldTo t => cases hrun
      | terminate => cases hrun

/-- Steps keep a run in play. -/
theorem InPlay.steps {n : Nat} (hsteps : Run.Steps cx n r s) (hhost : cx.host.OnlyEnds)
    (hsound : ∀ (k : Nat) (i : Instruction), cx.program.instructions[k]? = some i →
      i.Sound size? count cx.script)
    (hsize : ∀ id p, program? id = some p → size? id = some p.instructions.size)
    (hp : program? cx.script = some cx.program) (h : InPlay cx program? r) :
    InPlay cx program? s := by
  refine hsteps.invariant ?_ h
  intro u v offset i hat hstep hu
  exact hu.step hhost hat (hsound offset i hat.2.2) hsize hp hstep

theorem not_fails_overrun {site : Site} {i : Instruction} {states : Array ActorState}
    {offset length : Nat} : ¬ Fails site i states (.overrun offset length) := by
  intro h
  cases h

/-- Where a run in play stops, positions are valid and no other script runs. Its own has stopped or
is to be stopped for a fault, and if it ran off its program, it has just executed the last
instruction. -/
theorem InPlay.stops (h : InPlay cx program? r) (hhost : cx.host.OnlyEnds)
    (hsound : ∀ (k : Nat) (i : Instruction), cx.program.instructions[k]? = some i →
      i.Sound size? count cx.script)
    (hsize : ∀ id p, program? id = some p → size? id = some p.instructions.size)
    (hp : program? cx.script = some cx.program) {o : Except Fault Unit × Run σ}
    (hstops : Run.Stops cx r o) :
    StatesValid program? o.2.states ∧
      (∀ id, id ≠ cx.script → (scriptAt o.2.states id).running = false) ∧
      (o.1 = .ok () → (scriptAt o.2.states cx.script).running = false) ∧
      ∀ offset length, o.1 = .error (.overrun offset length) →
        offset = cx.program.instructions.size ∧ length = cx.program.instructions.size ∧
          o.2.visited.back? = some (cx.program.instructions.size - 1) := by
  cases hstops with
  | ended hrun => exact ⟨h.valid, h.others, fun _ => hrun, by simp⟩
  | @overrun offset hrun hoff hge =>
      refine ⟨h.valid, h.others, by simp, ?_⟩
      intro offset' length he
      cases he
      have hown := h.own hrun
      have hoff' : (scriptAt r.states cx.script).offset = offset := hoff
      rw [hoff'] at hown
      rcases hown with hlt | ⟨heq, hlast⟩
      · omega
      · exact ⟨heq, rfl, hlast⟩
  | exhausted => exact ⟨h.valid, h.others, by simp, by simp⟩
  | @fault offset i f after hat hstep =>
      obtain ⟨hvalid, hothers⟩ := h.step_states hhost hat (hsound offset i hat.2.2) hsize hp
      rw [hstep] at hvalid hothers
      refine ⟨hvalid, hothers, by simp, ?_⟩
      intro offset' length he
      cases he
      exact absurd (Run.fails_of_step hstep) not_fails_overrun

end

end

/-! ### Scenes at rest -/

/-- A scene between two operations: no script runs, and all positions are valid. -/
structure Scene.Resting (s : Scene) (source : SceneSource) : Prop where
  plays : s.Plays source
  stopped : ∀ id, (scriptAt s.states id).running = false
  valid : StatesValid s.program? s.states

/-- A script that ran off its program did so right behind the last instruction. -/
def OverrunAtEnd (program? : Option Program) (offset length : Nat) : Prop :=
  ∃ p, program? = some p ∧ offset = p.instructions.size ∧ length = p.instructions.size

namespace Scene

variable {σ : Type} {source : SceneSource} {s : Scene}

theorem states_started (s : Scene) (h : σ) (id : ScriptId) (offset : Nat) :
    (s.started h id offset).states =
      modifyScript s.states id fun t => { t with offset := offset, running := true } := rfl

theorem Resting.started (hs : s.Resting source) {id : ScriptId} {program : Program} {start : Nat}
    (hp : s.program? id = some program) (hr : (scriptAt s.states id).reentry = some start)
    (host : Host σ) (h : σ) (time : FrameTime) :
    InPlay (s.context host id program time) s.program? (s.started h id start) := by
  have hlt := hs.plays.actor_lt hp
  have hid : (s.context host id program time).script = id := rfl
  refine ⟨?_, ?_, ?_⟩
  · refine hs.valid.modifyScript ?_
    intro q hq
    have hv := hs.valid id q hq
    exact { hv with }
  · intro other hne
    rw [hid] at hne
    rw [states_started, scriptAt_modifyScript_of_ne hne]
    exact hs.stopped other
  · intro _
    rw [hid, states_started, scriptAt_modifyScript_self hlt]
    exact .inl ((hs.valid id program hp).reentry start hr)

/-- Running a script leaves the scene at rest, and if the script runs off its program, that is
behind its last instruction, which it has just executed. -/
theorem Resting.runScript (hs : s.Resting source) {host : Host σ} (hhost : host.OnlyEnds) (h : σ)
    (id : ScriptId) (time : FrameTime) :
    (s.runScript host h id time).scene.Resting source ∧
      ∀ offset length, (s.runScript host h id time).result = .error (.overrun offset length) →
        OverrunAtEnd (s.program? id) offset length ∧
          (s.runScript host h id time).visited.getLast? = some (offset - 1) := by
  cases hp : s.program? id with
  | none => simp [Scene.runScript, hp, hs]
  | some program =>
      have hplays := hs.plays.runScript host h id time
      have hprogram : (s.runScript host h id time).scene.program? = s.program? := by
        funext other
        rw [Scene.program?, programs_runScript, Scene.program?]
      cases hr : (scriptAt s.states id).reentry with
      | none =>
          obtain ⟨hresult, hstates⟩ := runScript_of_terminated hp hr host h time
          refine ⟨⟨hplays, ?_, ?_⟩, ?_⟩
          · rw [hstates]
            exact hs.stopped
          · rw [hprogram, hstates]
            exact hs.valid
          · intro offset length hf
            rw [hresult] at hf
            cases hf
      | some start =>
          obtain ⟨n, r, result, last, hsteps, hstops, hresult, hvisited, hstates⟩ :=
            runScript_stops hp hr host h time
          have hstarted := hs.started hp hr host h time
          have hsound := fun k i hi => hs.plays.sound (k := k) (i := i) hp hi
          have hr' := InPlay.steps hsteps hhost hsound hs.plays.size? hp hstarted
          obtain ⟨hvalid, hothers, hown, hend⟩ := hr'.stops hhost hsound hs.plays.size? hp hstops
          refine ⟨⟨hplays, ?_, ?_⟩, ?_⟩
          · intro other
            rw [hstates]
            by_cases hother : other = id
            · subst hother
              cases result with
              | ok u => exact hown rfl
              | error f =>
                  have hin : other.actor < last.states.size := by
                    rw [hstops.size, hsteps.size, states_started, size_modifyScript]
                    exact hs.plays.actor_lt hp
                  rw [scriptAt_modifyScript_self hin]
                  rfl
            · cases result with
              | ok u => exact hothers other hother
              | error f =>
                  rw [scriptAt_modifyScript_of_ne hother]
                  exact hothers other hother
          · rw [hprogram, hstates]
            cases result with
            | ok u => exact hvalid
            | error f => exact hvalid.modifyScript fun q hq => (hvalid id q hq).terminate
          · intro offset length hf
            rw [hresult] at hf
            cases result with
            | ok u => cases hf
            | error f =>
                cases hf
                obtain ⟨rfl, rfl, hlast⟩ := hend offset length rfl
                refine ⟨⟨program, rfl, rfl, rfl⟩, ?_⟩
                rw [hvisited, Array.getLast?_toList]
                exact hlast

/-! ### Frames -/

/-- A frame under way in which every script that ran off its program did so behind its last
instruction. -/
structure FrameProgress.Resting (p : FrameProgress σ) (source : SceneSource) : Prop where
  scene : p.scene.Resting source
  faults : ∀ id offset length, (id, .overrun offset length) ∈ p.report.faults →
    OverrunAtEnd (p.scene.program? id) offset length

theorem FrameProgress.Resting.run {p : FrameProgress σ} (hp : p.Resting source) {host : Host σ}
    (hhost : host.OnlyEnds) (time : FrameTime) (id : ScriptId) :
    (p.run host time id).Resting source := by
  obtain ⟨hscene, hend⟩ := hp.scene.runScript hhost p.host id time
  refine ⟨hscene, ?_⟩
  intro other offset length hmem
  have hprogram : (p.run host time id).scene.program? other = p.scene.program? other :=
    program?_runScript p.scene host p.host id other time
  rw [hprogram]
  unfold FrameProgress.run at hmem
  dsimp only at hmem
  cases hresult : (p.scene.runScript host p.host id time).result with
  | ok steps =>
      rw [hresult] at hmem
      exact hp.faults other offset length hmem
  | error fault =>
      rw [hresult] at hmem
      rcases List.mem_append.mp hmem with hmem | hmem
      · exact hp.faults other offset length hmem
      · obtain ⟨rfl, rfl⟩ := Prod.mk.inj (List.mem_singleton.mp hmem)
        exact (hend offset length hresult).1

theorem FrameProgress.Resting.foldl {p : FrameProgress σ} (hp : p.Resting source) {host : Host σ}
    (hhost : host.OnlyEnds) (time : FrameTime) (ids : List ScriptId) :
    (ids.foldl (fun p id => p.run host time id) p).Resting source := by
  induction ids generalizing p with
  | nil => exact hp
  | cons id ids ih => exact ih (hp.run hhost time id)

/-- A frame leaves the scene at rest. -/
theorem Resting.runFrame (hs : s.Resting source) {host : Host σ} (hhost : host.OnlyEnds) (h : σ)
    (time : FrameTime) :
    (s.runFrame host h time).2.1.Resting source ∧
      ∀ id offset length, (id, .overrun offset length) ∈ (s.runFrame host h time).1.faults →
        OverrunAtEnd (s.program? id) offset length := by
  have hstart : FrameProgress.Resting 
      { scene := { s with frame := s.frame + 1 }, host := h, report := { frame := s.frame + 1 } }
      source := by
    refine ⟨⟨⟨hs.plays.programs, hs.plays.size⟩, hs.stopped, hs.valid⟩, ?_⟩
    intro id offset length hmem
    cases hmem
  have hdone := hstart.foldl hhost time s.scripts
  refine ⟨⟨⟨hdone.scene.plays.programs, hdone.scene.plays.size⟩, hdone.scene.stopped,
    hdone.scene.valid⟩, ?_⟩
  intro id offset length hmem
  rw [hs.plays.program?, ← hdone.scene.plays.program?]
  exact hdone.faults id offset length hmem

/-! ### Reachable scenes -/

/-- The state a program starts in. -/
theorem scriptAt_ofCompiled {config : Config} {id : ScriptId} {p : Program}
    (hp : (ofCompiled (compileScene .standard source) config).program? id = some p) :
    scriptAt (ofCompiled (compileScene .standard source) config).states id = p.initialState := by
  obtain ⟨a, kind⟩ := id
  simp only [Scene.program?, ofCompiled, Array.getElem?_map, Option.map_map,
    SceneSource.getElem?_compileScene_actors, Option.map_eq_some_iff] at hp
  obtain ⟨parsed, hparsed, rfl⟩ := hp
  simp only [scriptAt, ofCompiled, Array.getD_eq_getD_getElem?, Array.getElem?_map,
    SceneSource.getElem?_compileScene_actors, hparsed, Option.map_some, Option.getD_some]
  cases kind <;> rfl

theorem initialState_valid (p : Program) (kind : ScriptKind) :
    p.initialState.running = false ∧ p.initialState.Valid p kind := by
  unfold Program.initialState
  split
  · exact ⟨rfl, by constructor <;> simp [ScriptState.terminated]⟩
  · next hne =>
      have hpos : 0 < p.instructions.size := by simpa [Array.isEmpty_iff, Nat.pos_iff_ne_zero] using hne
      exact ⟨rfl, by constructor <;> simp [ScriptState.fresh, hpos]⟩

theorem resting_ofCompiled (source : SceneSource) (config : Config) :
    (ofCompiled (compileScene .standard source) config).Resting source := by
  have hplays := plays_ofCompiled source config
  refine ⟨hplays, ?_, ?_⟩
  · intro id
    cases hp : (ofCompiled (compileScene .standard source) config).program? id with
    | some p =>
        rw [scriptAt_ofCompiled hp]
        exact (initialState_valid p id.kind).1
    | none =>
        by_contra hrun
        have hlt := actor_lt_of_running (by simpa using hrun)
        simp [Scene.program?, ofCompiled] at hp hlt
        omega
  · intro id p hp
    rw [scriptAt_ofCompiled hp]
    exact (initialState_valid p id.kind).2

/-- A change of an actor that stops its scripts and keeps their positions valid leaves the scene at
rest. -/
theorem Resting.modify (hs : s.Resting source) {a : Nat} {f : ActorState → ActorState}
    (hstop : ∀ b kind, ((f b).get kind).running = false)
    (hvalid : ∀ b kind p, s.program? ⟨a, kind⟩ = some p → (b.get kind).Valid p kind →
      ((f b).get kind).Valid p kind) :
    { s with states := s.states.modify a f }.Resting source := by
  refine ⟨⟨hs.plays.programs, by simp [hs.plays.size]⟩, ?_, ?_⟩
  · intro id
    rcases scriptAt_modify_cases s.states a f id with he | ⟨-, he⟩
    · rw [he]
      exact hs.stopped id
    · rw [he]
      exact hstop _ _
  · rintro ⟨b, kind⟩ p hp
    have hold := hs.valid ⟨b, kind⟩ p hp
    rcases scriptAt_modify_cases s.states a f ⟨b, kind⟩ with he | ⟨rfl, he⟩
    · rw [he]
      exact hold
    · rw [he]
      exact hvalid _ kind p hp hold

theorem Resting.killActor (hs : s.Resting source) {a : Nat} {t : Scene}
    (h : s.killActor a = .ok t) : t.Resting source := by
  unfold Scene.killActor at h
  split at h
  · cases h
    refine hs.modify ?_ ?_
    · intro b kind
      cases kind <;> rfl
    · intro b kind p _ hb
      cases kind with
      | life => exact hb.terminate
      | move => exact hb.terminate
  · cases h

/-- A restarted script begins at its first instruction, if it has one. -/
theorem restart_valid {p : Program} {kind : ScriptKind} {t : ScriptState} (h : t.Valid p kind) :
    (restart p t).Valid p kind := by
  have hreentry : ∀ k, (if p.instructions.isEmpty then none else some 0) = some k →
      k < p.instructions.size := by
    intro k hk
    split at hk
    · cases hk
    · next hne =>
        cases hk
        simpa [Array.isEmpty_iff, Nat.pos_iff_ne_zero] using hne
  exact { h with reentry := hreentry }

theorem Resting.reviveActor (hs : s.Resting source) {a : Nat} {t : Scene}
    (h : s.reviveActor a = .ok t) : t.Resting source := by
  unfold Scene.reviveActor at h
  split at h
  · cases h
  · next programs hprograms =>
      cases h
      refine hs.modify ?_ ?_
      · intro b kind
        cases kind <;> rfl
      · intro b kind p hp hb
        obtain rfl : programs.program kind = p := by simpa [Scene.program?, hprograms] using hp
        cases kind with
        | life => exact restart_valid hb
        | move => exact (restart_valid hb).clearTrack

theorem Resting.restore (hs : s.Resting source) {t u : Scene} (ht : t.Resting source)
    (h : s.restore t.snapshot = .ok u) : u.Resting source := by
  unfold Scene.restore at h
  split at h
  · cases h
    refine ⟨⟨hs.plays.programs, ?_⟩, ?_, ?_⟩
    · simpa [snapshot] using ht.plays.size
    · simpa [snapshot] using ht.stopped
    · intro id p hp
      have hp' : t.program? id = some p := by
        rw [ht.plays.program?, ← hs.plays.program?]
        exact hp
      simpa [snapshot] using ht.valid id p hp'
  · cases h

/-- The scenes that operations lead to from a compiled scene, with games that are allowed. A restored
snapshot is one of the scene itself, taken at any time. -/
inductive Reachable (allowed : ∀ {σ : Type}, Host σ → Prop) (source : SceneSource)
    (config : Config) : Scene → Prop
  | compiled : Reachable allowed source config (ofCompiled (compileScene .standard source) config)
  | runFrame {σ : Type} {s : Scene} {host : Host σ} (h : σ) (time : FrameTime) :
      Reachable allowed source config s → allowed host →
      Reachable allowed source config (s.runFrame host h time).2.1
  | runScript {σ : Type} {s : Scene} {host : Host σ} (h : σ) (id : ScriptId) (time : FrameTime) :
      Reachable allowed source config s → allowed host →
      Reachable allowed source config (s.runScript host h id time).scene
  | killActor {s t : Scene} {a : Nat} : Reachable allowed source config s →
      s.killActor a = .ok t → Reachable allowed source config t
  | reviveActor {s t : Scene} {a : Nat} : Reachable allowed source config s →
      s.reviveActor a = .ok t → Reachable allowed source config t
  | restore {s t u : Scene} : Reachable allowed source config s →
      Reachable allowed source config t → s.restore t.snapshot = .ok u →
      Reachable allowed source config u

/-- Every operation leaves the scene at rest. -/
theorem Reachable.resting {config : Config} (h : Reachable Host.OnlyEnds source config s) :
    s.Resting source := by
  induction h with
  | compiled => exact resting_ofCompiled source config
  | runFrame h time _ hhost ih => exact (ih.runFrame hhost h time).1
  | runScript h id time _ hhost ih => exact (ih.runScript hhost h id time).1
  | killActor _ hkill ih => exact ih.killActor hkill
  | reviveActor _ hrevive ih => exact ih.reviveActor hrevive
  | restore _ _ hrestore ihs iht => exact ihs.restore iht hrestore

/-- **Stored positions stay valid.** In every scene that operations lead to from one compiled with
the standard catalog, no script runs and every position stored for a script is one of its program,
of a behavior or a track where it should be. So whenever a script of it runs off its program, by
itself or in a frame, it does so behind the last instruction. -/
theorem valid_of_reachable (source : SceneSource) (config : Config) (s : Scene)
    (hs : Reachable Host.OnlyEnds source config s) :
    (∀ id p, s.program? id = some p →
      (scriptAt s.states id).running = false ∧ (scriptAt s.states id).Valid p id.kind) ∧
    ∀ {σ : Type} (host : Host σ), host.OnlyEnds → ∀ (h : σ) (time : FrameTime),
      (∀ id offset length, (s.runScript host h id time).result = .error (.overrun offset length) →
        OverrunAtEnd (s.program? id) offset length ∧
          (s.runScript host h id time).visited.getLast? = some (offset - 1)) ∧
      ∀ id offset length, (id, .overrun offset length) ∈ (s.runFrame host h time).1.faults →
        OverrunAtEnd (s.program? id) offset length := by
  have hrest := hs.resting
  refine ⟨fun id p hp => ⟨hrest.stopped id, hrest.valid id p hp⟩, ?_⟩
  intro σ host hhost h time
  exact ⟨fun id => (hrest.runScript hhost h id time).2, (hrest.runFrame hhost h time).2⟩

theorem quiet_onlyEnds : Host.quiet.OnlyEnds := by
  refine ⟨?_, fun _ _ _ => .inl rfl⟩
  intro call h flow hflow
  cases hflow
  exact .inl rfl

/-- A frame of an actor that starts its track 7: both scripts run off their programs, and the track
stays noted. -/
theorem valid_of_reachable_track :
    let source : SceneSource := { actors := [{ life := [0x17, 0, 0], moves := [0x09, 7] }] }
    let s := ofCompiled (compileScene .standard source) {}
    let t := (s.runFrame .quiet () {}).2.1
    (.life 0, .overrun 2 2) ∈ (s.runFrame .quiet () {}).1.faults ∧
      OverrunAtEnd (s.program? (.life 0)) 2 2 ∧ (scriptAt t.states (.move 0)).track = some 7 ∧
      ∀ p, t.program? (.move 0) = some p → (scriptAt t.states (.move 0)).Valid p .move := by
  intro source s t
  have hs : Reachable Host.OnlyEnds source {} s := .compiled
  have ht : Reachable Host.OnlyEnds source {} t := .runFrame () {} hs quiet_onlyEnds
  have hfault : (.life 0, .overrun 2 2) ∈ (s.runFrame .quiet () {}).1.faults := by decide +kernel
  refine ⟨hfault, ?_, by decide +kernel, ?_⟩
  · exact ((valid_of_reachable source {} s hs).2 .quiet quiet_onlyEnds () {}).2 _ _ _ hfault
  · intro p hp
    exact ((valid_of_reachable source {} t ht).1 (.move 0) p hp).2

end Scene

end SceneScript
