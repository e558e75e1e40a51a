import SceneScript.Proofs.Assembly

/-! # Structured programs run as written

A structured program, compiled, does to the game what `Block.act` says, and ends.

* `Stage.Reached g k h r`: the run `r` has come to instruction `k` with the game in state `h`; the
  script is in its first behavior, nothing else has changed since the run began, and no scratch
  record from `k` on has been touched.
* `Stage.Leads`: from one instruction to a later one, in at most as many steps as lie between.
  Every jump leads forward, so no instruction is executed twice and the number of instructions is
  budget enough.
* `Stage.Leads.block`: a program leads from its start to its end, by induction on the program.
* `Scene.runScript_structured`: the whole, from bytes to the end of the run. -/

namespace SceneScript

/-- A game that accepts every command and leaves the states of the caller alone. -/
structure Host.Compliant {σ : Type} (host : Host σ) : Prop where
  accepts : ∀ call h, (host.execute call h).1.flow = .ok .advance
  keeps : ∀ call h, (host.execute call h).1.actor = call.actor

/-- A game that does what it is told: it accepts every command, leaves the states of the caller
alone and answers every question. -/
structure Host.Obliging {σ : Type} (host : Host σ) : Prop where
  accepts : ∀ call h, (host.execute call h).1.flow = .ok .advance
  keeps : ∀ call h, (host.execute call h).1.actor = call.actor
  answers : ∀ query h, ∃ n, (host.evaluate query h).1 = .ok n

theorem Host.Obliging.compliant {σ : Type} {host : Host σ} (h : host.Obliging) : host.Compliant :=
  ⟨h.accepts, h.keeps⟩

/-- The outcome on which a test jumps. -/
def Operation.jumpsOn : Operation → Bool
  | .orIf => true
  | _ => false

namespace Stage

variable {σ : Type}

/-- A stage that is set for a program: a life script of an actor of a scene of the layout, in front
of a game that accepts every command. -/
structure Set (g : Stage σ) (layout : Layout) (p : Program) : Prop where
  index : g.index = p.indexAt
  kind : g.script.kind = .life
  actor : g.script.actor < g.states.size
  size : g.states.size = layout.actorCount
  host : g.host.Compliant

/-- What stays fixed in a run of a program on the stage. -/
def context (g : Stage σ) (p : Program) (gas : Nat) : RunContext σ :=
  ⟨g.host, g.script, p, g.time, false, gas⟩

/-- The states of all actors while the script is at an instruction. -/
def statesAt (g : Stage σ) (k : Nat) : Array ActorState := modifyScript g.states g.script (busy k)

def site (g : Stage σ) (k : Nat) : Site := ⟨g.script, k, g.time⟩

/-- What an instruction finds. -/
def world (g : Stage σ) (k : Nat) (h : σ) : World σ := ⟨g.statesAt k, g.memory.callState k, h⟩

/-- A run has come to an instruction. -/
structure Reached (g : Stage σ) (k : Nat) (h : σ) (r : Run σ) : Prop where
  states : r.states = g.statesAt k
  memory : ∀ j, k ≤ j → r.memory.callState j = g.memory.callState j
  host : r.host = h

/-- Every run that has come to one instruction comes to another, in at most as many steps as lie
between them. -/
def Leads (g : Stage σ) (p : Program) (gas k : Nat) (h : σ) (n : Nat) (h' : σ) : Prop :=
  ∀ r, g.Reached k h r → ∃ m r', Run.Steps (g.context p gas) m r r' ∧ k + m ≤ n ∧ g.Reached n h' r'

variable {g : Stage σ} {p : Program} {gas : Nat} {layout : Layout}

theorem Leads.refl (k : Nat) (h : σ) : g.Leads p gas k h k h :=
  fun r hr => ⟨0, r, .refl r, Nat.le_refl k, hr⟩

theorem Leads.trans {k m n : Nat} {h h' h'' : σ} (hk : g.Leads p gas k h m h')
    (hm : g.Leads p gas m h' n h'') : g.Leads p gas k h n h'' := by
  intro r hr
  obtain ⟨i, s, hsteps, hle, hs⟩ := hk r hr
  obtain ⟨j, t, hsteps', hle', ht⟩ := hm s hs
  exact ⟨i + j, t, hsteps.trans hsteps', by omega, ht⟩

/-! ### One instruction -/

/-- A run whose script runs at an instruction. -/
theorem at_of_states (hg : g.Set layout p) {k : Nat} {i : Instruction} {r : Run σ}
    {f : ScriptState → ScriptState} (hstates : r.states = modifyScript g.states g.script f)
    (hf : ∀ t, (f t).running = true ∧ (f t).offset = k) (hi : p.instructions[k]? = some i) :
    Run.At (g.context p gas) r k i := by
  have hscript : Run.script r g.script = f (scriptAt g.states g.script) := by
    rw [← scriptAt_modifyScript_self hg.actor f, ← hstates]
    rfl
  refine ⟨?_, ?_, hi⟩
  · exact (congrArg ScriptState.running hscript).trans (hf _).1
  · exact (congrArg ScriptState.offset hscript).trans (hf _).2

theorem entered_of_states {r : Run σ} {f : ScriptState → ScriptState}
    (hstates : r.states = modifyScript g.states g.script f) :
    Run.entered (g.context p gas) r =
      modifyScript g.states g.script fun t => { f t with reentry := none } := by
  unfold Run.entered
  rw [hstates]
  exact modifyScript_modifyScript g.states g.script f _

theorem Reached.stands {k : Nat} {h : σ} {r : Run σ} (hr : g.Reached k h r) (hg : g.Set layout p)
    {i : Instruction} (hi : p.instructions[k]? = some i) : Run.At (g.context p gas) r k i :=
  at_of_states hg hr.states (fun _ => ⟨rfl, rfl⟩) hi

theorem Reached.entered {k : Nat} {h : σ} {r : Run σ} (hr : g.Reached k h r) :
    Run.entered (g.context p gas) r = g.statesAt k :=
  entered_of_states hr.states

/-- An instruction that leaves the states alone and goes on forward. -/
theorem Leads.one (hg : g.Set layout p) {k n : Nat} {i : Instruction} {h : σ} {flow : Flow}
    {w : World σ} (hi : p.instructions[k]? = some i)
    (hx : (Step.execute g.host (g.site k) i).run (g.world k h) = (.ok flow, w))
    (hstates : w.states = g.statesAt k) (hflow : ∀ s, flow.apply k (busy k s) = busy n s)
    (hn : k < n) : g.Leads p gas k h n w.host := by
  intro r hr
  have hstep : Run.step (g.context p gas) k i r = _ := Run.step_of_execute rfl (by
    rw [hr.entered, hr.memory k (Nat.le_refl k), hr.host]
    exact hx)
  refine ⟨1, _, .more (hr.stands hg hi) hstep (.refl _), hn, ?_, ?_, rfl⟩
  · change modifyScript w.states g.script (flow.apply k) = g.statesAt n
    rw [hstates, statesAt, modifyScript_modifyScript]
    exact congrArg _ (funext hflow)
  · intro j hj
    rw [← hr.memory j (by omega)]
    exact Run.callState_record w.callState r.memory (by omega)

theorem execute_idle {i : Instruction} (hop : i.operation ∈ [.endIf, .defaultArm]) (host : Host σ)
    (site : Site) (w : World σ) : (Step.execute host site i).run w = (.ok .advance, w) := by
  simp only [List.mem_cons, List.not_mem_nil, or_false] at hop
  unfold Step.execute
  rcases hop with hop | hop
  · rw [hop]
    rfl
  · rw [hop]
    rfl

theorem execute_jump {i : Instruction} {t : Nat} (hop : i.operation ∈ [.elseThen, .breakOff])
    (ht : i.targetAt 0 = .ok t) (host : Host σ) (site : Site) (w : World σ) :
    (Step.execute host site i).run w = (.ok (.jump t), w) := by
  have hrun : (Step.demand i (i.targetAt 0) >>= fun t => pure (Flow.jump t) : Exec σ Flow).run w =
      (.ok (.jump t), w) := by
    rw [ht]
    rfl
  simp only [List.mem_cons, List.not_mem_nil, or_false] at hop
  unfold Step.execute
  rcases hop with hop | hop
  · rw [hop]
    exact hrun
  · rw [hop]
    exact hrun

theorem Leads.walk (hg : g.Set layout p) {k n : Nat} (hf : p.Follows k n) (h : σ) :
    g.Leads p gas (k + 1) h n h := by
  have hwalk : ∀ d j, k < j → j + d = n → g.Leads p gas j h n h := by
    intro d
    induction d with
    | zero =>
        intro j _ hj
        rw [Nat.add_zero] at hj
        rw [hj]
        exact .refl n h
    | succ d ih =>
        intro j hlt hj
        obtain ⟨i, hi, hop⟩ := hf.2 j hlt (by omega)
        have hstep : g.Leads p gas j h (j + 1) h :=
          Leads.one hg hi (execute_idle (by simp [hop]) _ _ _) rfl (fun _ => rfl) (Nat.lt_succ_self j)
        exact hstep.trans (ih (j + 1) (by omega) (by omega))
  exact hwalk (n - (k + 1)) (k + 1) (Nat.lt_succ_self k) (by have := hf.1; omega)

/-- An instruction that advances leads to the one behind the ends of blocks. -/
theorem Leads.advance (hg : g.Set layout p) {k n : Nat} {i : Instruction} {h : σ} {w : World σ}
    (hi : p.instructions[k]? = some i)
    (hx : (Step.execute g.host (g.site k) i).run (g.world k h) = (.ok .advance, w))
    (hstates : w.states = g.statesAt k) (hf : p.Follows k n) : g.Leads p gas k h n w.host := by
  have hstep : g.Leads p gas k h (k + 1) w.host :=
    Leads.one hg hi hx hstates (fun _ => rfl) (Nat.lt_succ_self k)
  exact hstep.trans (.walk hg hf w.host)

theorem Leads.jump (hg : g.Set layout p) {k n : Nat} {i : Instruction} {h : σ} {w : World σ}
    (hi : p.instructions[k]? = some i)
    (hx : (Step.execute g.host (g.site k) i).run (g.world k h) = (.ok (.jump n), w))
    (hstates : w.states = g.statesAt k) (hn : k < n) : g.Leads p gas k h n w.host :=
  .one hg hi hx hstates (fun _ => rfl) hn

/-! ### Questions -/

theorem moves_statesAt (hg : g.Set layout p) (k a : Nat) :
    ((g.statesAt k).getD a {}).moves = (g.states.getD a {}).moves := by
  simp only [statesAt, modifyScript, hg.kind, Array.getD_eq_getD_getElem?, Array.getElem?_modify]
  split
  · cases g.states[a]? <;> rfl
  · rfl

theorem actor_world (hg : g.Set layout p) (k : Nat) (h : σ) :
    (g.world k h).actor g.script.actor = g.caller k := by
  simp only [World.actor, world, statesAt, modifyScript, caller, Array.getD_eq_getD_getElem?,
    Array.getElem?_modify, if_true, Array.getElem?_eq_getElem hg.actor, Option.map_some,
    Option.getD_some]

/-- A question is answered by a track or by the game. -/
theorem run_evaluate (hg : g.Set layout p) {k : Condition} (hk : k.Conforms .standard)
    (hscene : ∀ a ∈ k.param, a.InScene layout) (i : Instruction) (start : Nat) (h : σ)
    (hanswers : k.predicate.source = .host →
      ∃ n, (g.host.evaluate (g.query start k) h).1 = .ok n) :
    (Step.evaluate g.host (g.site (g.index start)) i
      ⟨k.predicate, k.param.map Argument.bound⟩).run (g.world (g.index start) h) =
      (.ok (g.ask start k h).1, g.world (g.index start) (g.ask start k h).2) := by
  have htrack : ∀ a, Step.currentTrack ((g.world (g.index start) h).actor a) =
      Step.currentTrack (g.states.getD a {}) := by
    intro a
    unfold Step.currentTrack World.actor
    exact congrArg (fun m => m.track.getD Step.noTrack) (moves_statesAt hg _ a)
  unfold Step.evaluate ask
  cases hs : k.predicate.source with
  | ownTrack =>
      change (Except.ok (Step.currentTrack ((g.world (g.index start) h).actor g.script.actor)), _) = _
      rw [htrack]
  | actorTrack =>
      obtain ⟨slot, n, hrole, hparam⟩ := hk.actorTrack (standard_predicate_wellLaid hk.1) hs
      have hscene := hscene _ hparam
      simp only [Argument.InScene, hrole] at hscene
      have hbound : Argument.bound ⟨slot, .number n⟩ = .actor n.toNat := by
        simp only [Argument.bound, hrole]
      have hactor : (Step.actorOf i (k.param.map Argument.bound)).run
          (g.world (g.index start) h) = (.ok n.toNat, g.world (g.index start) h) := by
        have hlt : n.toNat < (g.world (g.index start) h).states.size := by
          simp only [world, statesAt, size_modifyScript, hg.size]
          exact hscene.2
        change (Step.demand i (actorOperand (g.world (g.index start) h).states.size
          (k.param.map Argument.bound))).run _ = _
        rw [hparam, Option.map_some, hbound, actorOperand, if_pos hlt]
        rfl
      dsimp only
      rw [Exec.run_bind hactor]
      change (Except.ok (Step.currentTrack ((g.world (g.index start) h).actor n.toNat)), _) = _
      rw [htrack, hparam]
      rfl
  | host =>
      have hquery : ({ g.query start k with
          actor := (g.world (g.index start) h).actor g.script.actor } : HostQuery) =
            g.query start k := by
        rw [actor_world hg]
        rfl
      obtain ⟨v, hv⟩ := hanswers hs
      change (Except.mapError (Fault.host i.label) (g.host.evaluate
        { g.query start k with
          actor := (g.world (g.index start) h).actor g.script.actor } h).1,
        g.world (g.index start) (g.host.evaluate
          { g.query start k with
            actor := (g.world (g.index start) h).actor g.script.actor } h).2) = _
      rw [hquery]
      dsimp only
      rw [hv]
      rfl

/-! ### Tests, jumps and commands of the game -/

theorem targetAt_of_bound {index : Nat → Nat} {command : Command} {i : Instruction} {target : Nat}
    (hi : command.Bound index i) (hargs : command.args = [⟨.jump, .number target⟩]) :
    i.targetAt 0 = .ok (index target) := by
  unfold Instruction.targetAt
  rw [hi.operands, hargs]
  rfl

theorem run_test (hg : g.Set layout p) (hhost : g.host.Obliging) {c : Clause}
    (hc : c.InScene layout) {o : Operation} {start target : Nat} {i : Instruction}
    (hi : (c.command o start target).Bound g.index i) (h : σ) :
    (Step.test g.host (g.site (g.index start)) i).run (g.world (g.index start) h) =
      (.ok (g.passes start c h).1,
        g.world (g.index start) (g.passes start c h).2) := by
  have hcondition : i.predicate =
      .ok ⟨c.condition.predicate, c.condition.param.map Argument.bound⟩ := by
    unfold Instruction.predicate
    rw [hi.condition]
    rfl
  have htest : i.comparison = .ok (Compile.test c.test) := by
    unfold Instruction.comparison
    rw [hi.test]
    rfl
  unfold Step.test
  rw [hcondition, htest]
  change (Step.evaluate g.host (g.site (g.index start)) i
    ⟨c.condition.predicate, c.condition.param.map Argument.bound⟩ >>= _).run _ = _
  rw [Exec.run_bind (run_evaluate hg hc.condition hc.param i start h fun _ => hhost.answers _ h)]
  rfl

/-- A test jumps or goes on. -/
theorem run_execute_test (hg : g.Set layout p) (hhost : g.host.Obliging) {c : Clause}
    (hc : c.InScene layout) {o : Operation} (ho : o ∈ testOperations) {start target : Nat}
    {i : Instruction} (hi : (c.command o start target).Bound g.index i) (h : σ) :
    (Step.execute g.host (g.site (g.index start)) i).run (g.world (g.index start) h) =
      (.ok (Step.branch ((g.passes start c h).1 == o.jumpsOn) (g.index target)),
        g.world (g.index start) (g.passes start c h).2) := by
  have hop : i.operation = o := by
    rw [Instruction.operation, hi.opcode]
    exact (opcodeOf_test o ho).1
  have htarget := targetAt_of_bound hi rfl
  have htest := run_test hg hhost hc hi h
  have hunless : (Step.jumpUnless g.host (g.site (g.index start)) i).run
      (g.world (g.index start) h) =
        (.ok (Step.branch (!(g.passes start c h).1) (g.index target)),
          g.world (g.index start) (g.passes start c h).2) := by
    unfold Step.jumpUnless
    rw [htarget]
    change (Step.test g.host (g.site (g.index start)) i >>= _).run _ = _
    rw [Exec.run_bind htest]
    rfl
  have hif : (Step.jumpIf g.host (g.site (g.index start)) i).run (g.world (g.index start) h) =
        (.ok (Step.branch (g.passes start c h).1 (g.index target)),
          g.world (g.index start) (g.passes start c h).2) := by
    unfold Step.jumpIf
    rw [htarget]
    change (Step.test g.host (g.site (g.index start)) i >>= _).run _ = _
    rw [Exec.run_bind htest]
    rfl
  unfold Step.execute
  rw [hop]
  simp only [testOperations, List.mem_cons, List.not_mem_nil, or_false] at ho
  rcases ho with rfl | rfl | rfl
  · rw [show Operation.jumpsOn .ifThen = false from rfl, beq_false]
    exact hunless
  · rw [show Operation.jumpsOn .orIf = true from rfl, beq_true]
    exact hif
  · rw [show Operation.jumpsOn .andIf = false from rfl, beq_false]
    exact hunless

theorem modify_actor_statesAt (hg : g.Set layout p) (k : Nat) :
    (g.statesAt k).modify g.script.actor (fun _ => g.caller k) = g.statesAt k := by
  apply Array.ext_getElem?
  intro a
  rw [Array.getElem?_modify]
  split
  · next ha =>
      subst ha
      simp only [statesAt, modifyScript, caller, Array.getElem?_modify, if_true,
        Array.getD_eq_getD_getElem?, Array.getElem?_eq_getElem hg.actor, Option.map_some,
        Option.getD_some]
  · rfl

/-- The order that an instruction without a condition is to the game. -/
def hostCall (site : Site) (i : Instruction) (w : World σ) : HostCall where
  script := site.script
  opcode := i.opcode
  offset := site.offset
  callState := if i.opcode.needsCallState then some w.callState else none
  condition := none
  passed := none
  operands := i.operands
  time := site.time
  actor := w.actor site.script.actor

theorem run_callHost {i : Instruction} (hcondition : i.condition = none) (htest : i.test = none)
    (host : Host σ) (site : Site) (w : World σ) :
    ∃ c, (Step.callHost host site i).run w =
      ((host.execute (hostCall site i w) w.host).1.flow.mapError (.host i.label),
        ⟨w.states.modify site.script.actor
          (fun _ => (host.execute (hostCall site i w) w.host).1.actor), c,
          (host.execute (hostCall site i w) w.host).2⟩) := by
  unfold Step.callHost
  rw [hcondition, htest]
  exact ⟨_, rfl⟩

theorem run_execute_call (hg : g.Set layout p) {c : GameCommand} (hc : c.InScene layout)
    {start : Nat} {i : Instruction} (hi : (c.command start).Bound g.index i) (h : σ) :
    ∃ w, (Step.execute g.host (g.site (g.index start)) i).run (g.world (g.index start) h) =
      (.ok .advance, w) ∧ w.states = g.statesAt (g.index start) ∧ w.host = g.tell start c h := by
  have hhosted : i.operation.isHosted = true := by
    rw [Instruction.operation, hi.opcode]
    exact hc.hosted
  have hexecute : Step.execute g.host (g.site (g.index start)) i =
      Step.callHost g.host (g.site (g.index start)) i := by
    unfold Step.execute
    rcases Operation.eq_of_isHosted hhosted with hop | hop | hop <;> rw [hop]
  have hopcode : i.opcode = c.opcode := hi.opcode
  have hoperands : i.operands = c.args.map Argument.bound := by
    rw [hi.operands]
    refine List.map_congr_left fun a ha => ?_
    rw [Argument.boundAt, if_neg (hc.role_ne a ha)]
  have horder : hostCall (g.site (g.index start)) i (g.world (g.index start) h) =
      g.order start c := by
    have hactor : (g.world (g.index start) h).actor (g.site (g.index start)).script.actor =
        g.caller (g.index start) := actor_world hg _ _
    rw [hostCall, hopcode, hoperands, hactor]
    rfl
  obtain ⟨record, hrun⟩ := run_callHost hi.condition hi.test g.host (g.site (g.index start))
    (g.world (g.index start) h)
  have haccepts : (g.host.execute (g.order start c) (g.world (g.index start) h).host).1.flow =
      .ok .advance := hg.host.accepts _ _
  rw [horder, haccepts] at hrun
  rw [hexecute]
  refine ⟨_, hrun, ?_, rfl⟩
  change (g.statesAt (g.index start)).modify g.script.actor
    (fun _ => (g.host.execute (g.order start c) h).1.actor) = _
  rw [hg.host.keeps]
  exact modify_actor_statesAt hg (g.index start)

/-! ### Guards and blocks -/

/-- A test leads to its target, or to what is behind it. -/
theorem Leads.test (hg : g.Set layout p) (hhost : g.host.Obliging) {c : Clause}
    (hc : c.InScene layout) {o : Operation} (ho : o ∈ testOperations) {start target : Nat}
    (hhas : p.Has [c.command o start target]) (hlt : p.indexAt start < p.indexAt target) (h : σ) :
    g.Leads p gas (p.indexAt start) h
      (p.indexAt (if (g.passes start c h).1 = o.jumpsOn then target else start + c.size))
      (g.passes start c h).2 := by
  obtain ⟨i, hi, hbound⟩ := hhas.code _ List.mem_cons_self start rfl
  have hnext := hhas.next _ List.mem_cons_self start rfl
  rw [c.length_bytes ho] at hnext
  rw [← hg.index] at hi hbound hnext hlt ⊢
  have hx := run_execute_test hg hhost hc ho hbound h
  by_cases hpasses : (g.passes start c h).1 = o.jumpsOn
  · rw [if_pos hpasses]
    rw [hpasses, beq_self_eq_true] at hx
    exact Leads.jump hg hi hx rfl hlt
  · rw [if_neg hpasses]
    rw [beq_eq_false_iff_ne.mpr hpasses] at hx
    exact Leads.advance hg hi hx rfl hnext

theorem Leads.call (hg : g.Set layout p) {c : GameCommand} (hc : c.InScene layout) {start : Nat}
    (hhas : p.Has [c.command start]) (h : σ) :
    g.Leads p gas (p.indexAt start) h (p.indexAt (start + c.size)) (g.tell start c h) := by
  obtain ⟨i, hi, hbound⟩ := hhas.code _ List.mem_cons_self start rfl
  have hnext := hhas.next _ List.mem_cons_self start rfl
  rw [c.length_bytes] at hnext
  rw [← hg.index] at hi hbound hnext ⊢
  obtain ⟨w, hx, hstates, hhost⟩ := run_execute_call hg hc hbound h
  rw [← hhost]
  exact Leads.advance hg hi hx hstates hnext

theorem Leads.skip (hg : g.Set layout p) {start target : Nat}
    (hhas : p.Has [elseCommand start target]) (hlt : p.indexAt start < p.indexAt target) (h : σ) :
    g.Leads p gas (p.indexAt start) h (p.indexAt target) h := by
  obtain ⟨i, hi, hbound⟩ := hhas.code _ List.mem_cons_self start rfl
  have hop : i.operation ∈ [.elseThen, .breakOff] := by
    rw [Instruction.operation, hbound.opcode, elseCommand, opcodeOf_elseThen]
    exact List.mem_cons_self
  exact Leads.jump hg hi (execute_jump hop (targetAt_of_bound hbound rfl) _ _ _) rfl hlt

/-- A guard leads to its block, or to its exit. -/
theorem Leads.decide (hg : g.Set layout p) (hhost : g.host.Obliging) {anyOf : Bool}
    {body exit : Nat} {last : Clause} {chain : List Clause} (hchain : ∀ c ∈ chain, c.InScene layout)
    (hlast : last.InScene layout) {start : Nat} (hbody : body = start + chainSize last chain)
    (hexit : p.indexAt body ≤ p.indexAt exit)
    (hhas : p.Has (chainCommands anyOf body exit last chain start)) (h : σ) :
    g.Leads p gas (p.indexAt start) h
      (p.indexAt (if (g.decide anyOf last chain start h).1 then body else exit))
      (g.decide anyOf last chain start h).2 := by
  induction chain generalizing start h with
  | nil =>
      have hlt := indexAt_lt_of_chain hhas
      rw [← hbody] at hlt
      have htest : g.Leads p gas _ h _ _ := Leads.test hg hhost hlast
        (show .ifThen ∈ testOperations by decide) hhas (Nat.lt_of_lt_of_le hlt hexit) h
      have hbody : body = start + last.size := hbody
      have hdecide : g.decide anyOf last [] start h = g.passes start last h := rfl
      rw [hdecide, hbody]
      cases hpasses : (g.passes start last h).1 with
      | true => simpa [hpasses, Operation.jumpsOn] using htest
      | false => simpa [hpasses, Operation.jumpsOn] using htest
  | cons c rest ih =>
      have hlt := indexAt_lt_of_chain hhas
      rw [← hbody] at hlt
      have hc := hchain c List.mem_cons_self
      have hfirst : g.Leads p gas (p.indexAt start) h
          (p.indexAt (if (g.passes start c h).1 = anyOf then (if anyOf then body else exit)
            else start + c.size)) (g.passes start c h).2 := by
        rw [chainCommands] at hhas
        cases anyOf with
        | true =>
            exact Leads.test hg hhost hc (show .orIf ∈ testOperations by decide)
              (hhas.mono fun d hd => by simp_all) hlt h
        | false =>
            exact Leads.test hg hhost hc (show .andIf ∈ testOperations by decide)
              (hhas.mono fun d hd => by simp_all) (Nat.lt_of_lt_of_le hlt hexit) h
      have hdecide : g.decide anyOf last (c :: rest) start h =
          if (g.passes start c h).1 = anyOf then (anyOf, (g.passes start c h).2)
          else g.decide anyOf last rest (start + c.size) (g.passes start c h).2 := rfl
      rw [hdecide]
      by_cases hpasses : (g.passes start c h).1 = anyOf
      · rw [if_pos hpasses] at hfirst ⊢
        exact hfirst
      · rw [if_neg hpasses] at hfirst ⊢
        refine hfirst.trans (ih (fun d hd => hchain d (List.mem_cons_of_mem c hd)) ?_ ?_ _)
        · rw [hbody, chainSize, Nat.add_assoc]
        · exact hhas.mono fun d hd => List.mem_cons_of_mem _ hd

/-- **A program leads from its start to its end**, and does to the game what it says. -/
theorem Leads.block (hg : g.Set layout p) (hhost : g.host.Obliging) {b : Block}
    (hb : b.InScene layout) {start : Nat} (hhas : p.Has (b.commands start)) (h : σ) :
    g.Leads p gas (p.indexAt start) h (p.indexAt (start + b.size)) (b.act g start h) := by
  induction b generalizing start h with
  | done => exact .refl _ h
  | call c rest ih =>
      have hcall : g.Leads p gas _ h _ _ := Leads.call hg hb.1
        (hhas.mono fun d hd => by rw [List.mem_singleton.mp hd]; exact List.mem_cons_self) h
      rw [Block.size, ← Nat.add_assoc]
      exact hcall.trans (ih hb.2 (hhas.mono fun d hd => List.mem_cons_of_mem _ hd) _)
  | ifThen guard body rest ihbody ihrest =>
      obtain ⟨⟨hchain, hlast⟩, hbody, hrest⟩ := hb
      have hinner := hhas.right.left
      have hafter := hhas.right.right
      have hdecide : g.Leads p gas _ h _ _ := Leads.decide hg hhost hchain hlast rfl
        (Block.indexAt_le hinner) hhas.left h
      have hthen : g.Leads p gas _ _ _ _ := ihbody hbody hinner
        (g.decide guard.anyOf guard.last guard.chain start h).2
      rw [Block.size, ← Nat.add_assoc, ← Nat.add_assoc, Block.act]
      refine Leads.trans ?_ (ihrest hrest hafter _)
      cases hpasses : (g.decide guard.anyOf guard.last guard.chain start h).1 with
      | true =>
          rw [hpasses, if_pos rfl] at hdecide
          exact hdecide.trans hthen
      | false =>
          rw [hpasses] at hdecide
          exact hdecide
  | ifElse guard body other rest ihbody ihother ihrest =>
      obtain ⟨⟨hchain, hlast⟩, hbody, hother, hrest⟩ := hb
      have hinner := hhas.right.left
      have hskip : p.Has [elseCommand (start + guard.size + body.size)
          (start + guard.size + body.size + 3 + other.size)] :=
        hhas.right.right.mono fun d hd => by rw [List.mem_singleton.mp hd]; exact List.mem_cons_self
      have hbehind := hhas.right.right.mono fun d hd => List.mem_cons_of_mem _ hd
      have hsecond := hbehind.left
      have hafter := hbehind.right
      have hover : p.indexAt (start + guard.size + body.size) <
          p.indexAt (start + guard.size + body.size + 3) := by
        have := (hskip.next _ List.mem_cons_self _ rfl).1
        rwa [length_bytes_elseCommand] at this
      have hle := Block.indexAt_le hinner
      have hle' := Block.indexAt_le hsecond
      have hdecide : g.Leads p gas _ h _ _ := Leads.decide hg hhost hchain hlast rfl
        (Nat.le_of_lt (Nat.lt_of_le_of_lt hle hover)) hhas.left h
      have hthen : g.Leads p gas _ _ _ _ := ihbody hbody hinner
        (g.decide guard.anyOf guard.last guard.chain start h).2
      have helse : g.Leads p gas _ _ _ _ := ihother hother hsecond
        (g.decide guard.anyOf guard.last guard.chain start h).2
      rw [Block.size]
      simp only [← Nat.add_assoc]
      rw [Block.act]
      refine Leads.trans ?_ (ihrest hrest hafter _)
      cases hpasses : (g.decide guard.anyOf guard.last guard.chain start h).1 with
      | true =>
          rw [hpasses, if_pos rfl] at hdecide
          exact (hdecide.trans hthen).trans
            (Leads.skip hg hskip (Nat.lt_of_lt_of_le hover hle') _)
      | false =>
          rw [hpasses] at hdecide
          exact hdecide.trans helse

/-! ### From the first instruction to the END -/

/-- A run whose script is about to execute an instruction and has done nothing yet. -/
structure Begun (g : Stage σ) (h : σ) (r : Run σ) : Prop where
  states : r.states =
    modifyScript g.states g.script fun t => { t with offset := 0, running := true }
  memory : r.memory = g.memory
  host : r.host = h

theorem Begun.stands {h : σ} {r : Run σ} (hr : g.Begun h r) (hg : g.Set layout p)
    {i : Instruction} (hi : p.instructions[0]? = some i) : Run.At (g.context p gas) r 0 i :=
  at_of_states hg hr.states (fun _ => ⟨rfl, rfl⟩) hi

theorem Begun.enter {h : σ} {r : Run σ} (hr : g.Begun h r) (hg : g.Set layout p)
    {i : Instruction} (hi : p.instructions[0]? = some i) (hop : i.operation = .behaviour) :
    ∃ r', Run.Steps (g.context p gas) 1 r r' ∧ g.Reached 1 h r' := by
  have hx : ∀ w : World σ, (Step.execute g.host (g.site 0) i).run w =
      (.ok .advance, w.modifyScript g.script fun t => { t with behaviorOffset := some 0 }) := by
    intro w
    unfold Step.execute
    rw [hop]
    rfl
  have hstep : Run.step (g.context p gas) 0 i r = _ := Run.step_of_execute rfl (hx _)
  refine ⟨_, .more (hr.stands hg hi) hstep (.refl _), ?_, ?_, hr.host⟩
  · change modifyScript (modifyScript (Run.entered (g.context p gas) r) g.script _) g.script _ = _
    rw [entered_of_states hr.states, modifyScript_modifyScript, modifyScript_modifyScript]
    rfl
  · intro j hj
    rw [← hr.memory]
    exact Run.callState_record _ _ (by omega)

theorem execute_finish {i : Instruction} (hop : i.operation = .finish) (host : Host σ)
    (site : Site) (w : World σ) : (Step.execute host site i).run w = (.ok .terminate, w) := by
  unfold Step.execute
  rw [hop]
  rfl

/-- A run that has ended its script, and done nothing else but to the game. -/
structure Over (g : Stage σ) (h : σ) (r : Run σ) : Prop where
  states : ∃ f, r.states = modifyScript g.states g.script f ∧
    ∀ t, (f t).reentry = none ∧ (f t).running = false
  host : r.host = h

theorem finish {k : Nat} {i : Instruction} {f : ScriptState → ScriptState} {h : σ} {r : Run σ}
    (hat : Run.At (g.context p gas) r k i) (hop : i.operation = .finish)
    (hentered : Run.entered (g.context p gas) r = modifyScript g.states g.script f)
    (hhost : r.host = h) : ∃ r', Run.Steps (g.context p gas) 1 r r' ∧ g.Over h r' := by
  have hstep : Run.step (g.context p gas) k i r = _ :=
    Run.step_of_execute rfl (execute_finish hop _ _ _)
  refine ⟨_, .more hat hstep (.refl _), ⟨fun t => (f t).terminate, ?_, fun _ => ⟨rfl, rfl⟩⟩, hhost⟩
  change modifyScript (Run.entered (g.context p gas) r) g.script _ = _
  rw [hentered, modifyScript_modifyScript]
  rfl

/-- **An assembled program runs to its END**, in as many steps as it has instructions at most. -/
theorem Begun.over {h : σ} {r : Run σ} (hr : g.Begun h r) (hg : g.Set layout p)
    (hhost : g.host.Obliging) {b : Block} (hb : b.InScene layout) (hp : b.Assembled p) :
    ∃ n r', Run.Steps (g.context p gas) n r r' ∧ n ≤ p.instructions.size ∧
      g.Over (b.act g 0 h) r' := by
  obtain ⟨last, hlast, hfinish⟩ := hp.finish
  have hsize := (Array.getElem?_eq_some_iff.mp hlast).1
  by_cases hdone : b = .done
  · subst hdone
    have hzero : p.indexAt (Block.size .done) = 0 := hp.empty rfl
    rw [hzero] at hlast hsize
    have hat : Run.At (g.context p gas) r 0 last := hr.stands hg hlast
    obtain ⟨r', hsteps, hover⟩ := finish hat hfinish (entered_of_states hr.states) hr.host
    exact ⟨1, r', hsteps, hsize, hover⟩
  · obtain ⟨hfollows, i, hi, hop⟩ := hp.entry hdone
    obtain ⟨r₁, hsteps₁, hr₁⟩ : ∃ r', Run.Steps (g.context p gas) 1 r r' ∧ g.Reached 1 h r' :=
      hr.enter hg hi hop
    have hleads : g.Leads p gas 1 h (p.indexAt b.size) (b.act g 0 h) := by
      have hblock : g.Leads p gas _ h _ _ := Leads.block hg hhost hb hp.has h
      rw [Nat.zero_add] at hblock
      exact (Leads.walk hg hfollows h).trans hblock
    obtain ⟨m, r₂, hsteps₂, hle, hr₂⟩ := hleads r₁ hr₁
    have hat : Run.At (g.context p gas) r₂ (p.indexAt b.size) last := hr₂.stands hg hlast
    obtain ⟨r₃, hsteps₃, hover⟩ := finish hat hfinish hr₂.entered hr₂.host
    exact ⟨1 + m + 1, r₃, (hsteps₁.trans hsteps₂).trans hsteps₃, by omega, hover⟩

end Stage

/-! ### Structured programs in a scene -/

/-- The game that accepts every command, answers every question with one and writes down what it is
told and asked. -/
def Host.scribe : Host (List String) where
  execute call h := (⟨.ok .advance, call.actor, call.callState⟩, h ++ [call.opcode.name])
  evaluate query h := (.ok 1, h ++ [query.predicate.name])

theorem Host.scribe_obliging : Host.scribe.Obliging :=
  ⟨fun _ _ => rfl, fun _ _ => rfl, fun _ _ => ⟨1, rfl⟩⟩

namespace Scene

variable {σ : Type}

/-- The stage on which the life script of an actor runs. -/
def stage (s : Scene) (host : Host σ) (a : Nat) (p : Program) (time : FrameTime) : Stage σ where
  host := host
  script := .life a
  time := time
  states := s.states
  memory := (s.memory.getD a {}).get .life
  index := p.indexAt

theorem exists_assembled {source : SceneSource} {a : Nat} {b : Block}
    (hbytes : source.bytes? (.life a) = some b.script) (hb : b.InScene source.layout)
    (hjumps : ∀ c ∈ b.commands 0, ∀ t ∈ c.jumps, t < 65536) {s : Scene} (hs : s.Plays source) :
    ∃ p, s.program? (.life a) = some p ∧ b.Assembled p := by
  obtain ⟨all, hread⟩ := b.readAs hbytes hb hjumps
  refine ⟨_, ?_, hread.assembled hb⟩
  rw [hs.program?, hread.found, Option.map_some]

/-- A run that ends its script within the budget is the run of the scene. -/
theorem runScript_of_over {s : Scene} {a : Nat} {p : Program} {host : Host σ}
    (hp : s.program? (.life a) = some p) (hactor : a < s.states.size)
    (hr : (scriptAt s.states (.life a)).reentry = some 0) (hheadless : s.config.headless = false)
    (hgas : p.instructions.size ≤ s.config.gasLimit) {h told : σ} {time : FrameTime}
    (hover : ∀ r, (s.stage host a p time).Begun h r → ∃ n r',
      Run.Steps ((s.stage host a p time).context p s.config.gasLimit) n r r' ∧
        n ≤ p.instructions.size ∧ (s.stage host a p time).Over told r') :
    (∃ n, (s.runScript host h (.life a) time).result = .ok n) ∧
      (s.runScript host h (.life a) time).host = told ∧
      ∃ f, (s.runScript host h (.life a) time).scene.states = modifyScript s.states (.life a) f ∧
        ∀ t, (f t).reentry = none ∧ (f t).running = false := by
  have hcontext : s.context host (.life a) p time =
      (s.stage host a p time).context p s.config.gasLimit := by
    unfold context
    rw [hheadless]
    rfl
  obtain ⟨n, last, hsteps, hn, hover⟩ := hover (s.started h (.life a) 0) ⟨rfl, rfl, rfl⟩
  obtain ⟨f, hstates, hf⟩ := hover.states
  have hended : (Run.script last (.life a)).running = false := by
    have hscript : Run.script last (.life a) = f (scriptAt s.states (.life a)) := by
      have hlast : scriptAt last.states (.life a) = f (scriptAt s.states (.life a)) := by
        rw [hstates]
        exact scriptAt_modifyScript_self hactor f
      exact hlast
    rw [hscript]
    exact (hf _).2
  have hdrive : Run.drive (s.context host (.life a) p time) s.config.gasLimit
      (s.started h (.life a) 0) = (.ok (), last) := by
    have hall := hsteps.drive (s.config.gasLimit - n)
    rw [Nat.sub_add_cancel (Nat.le_trans hn hgas)] at hall
    rw [hcontext, hall]
    exact Run.drive_of_ended hended _
  obtain ⟨hresult, -, hgame, hscene⟩ := runScript_of_drive hp hr hdrive
  exact ⟨⟨_, hresult⟩, hgame.trans hover.host, f, hscene.trans hstates, hf⟩

theorem runScript_assembled {s : Scene} {layout : Layout} {a : Nat} {b : Block} {p : Program}
    {host : Host σ} (hp : s.program? (.life a) = some p) (hassembled : b.Assembled p)
    (hb : b.InScene layout) (hactor : a < s.states.size)
    (hsize : s.states.size = layout.actorCount) (hhost : host.Obliging)
    (hr : (scriptAt s.states (.life a)).reentry = some 0) (hheadless : s.config.headless = false)
    (hgas : p.instructions.size ≤ s.config.gasLimit) (h : σ) (time : FrameTime) :
    (∃ n, (s.runScript host h (.life a) time).result = .ok n) ∧
      (s.runScript host h (.life a) time).host = b.act (s.stage host a p time) 0 h ∧
      ∃ f, (s.runScript host h (.life a) time).scene.states = modifyScript s.states (.life a) f ∧
        ∀ t, (f t).reentry = none ∧ (f t).running = false := by
  have hg : (s.stage host a p time).Set layout p := ⟨rfl, rfl, hactor, hsize, hhost.compliant⟩
  exact runScript_of_over hp hactor hr hheadless hgas fun r hr => hr.over hg hhost hb hassembled

/-- **Structured programs run as written.** The script of a program that names only actors and
points of its scene, and whose jumps fit in sixteen bits, is compiled without a diagnostic. In a
scene that is not headless, from its first instruction and with a budget of as many instructions as
it has, it does to a game that does what it is told what the program says, command by command and
question by question, ends, and changes no other script. -/
theorem runScript_structured {source : SceneSource} {a : Nat} {b : Block}
    (hbytes : source.bytes? (.life a) = some b.script) (hb : b.InScene source.layout)
    (hjumps : ∀ c ∈ b.commands 0, ∀ t ∈ c.jumps, t < 65536) :
    ((compileScene .standard source).diagnostics =
        DiagnosticLog.empty.pushAll (source.findings .standard) ∧
      ∀ d ∈ source.findings .standard, d.location.script ≠ .life a) ∧
    ∀ s : Scene, s.Plays source → ∃ p, s.program? (.life a) = some p ∧
      ((scriptAt s.states (.life a)).reentry = some 0 → s.config.headless = false →
        p.instructions.size ≤ s.config.gasLimit → ∀ host : Host σ, host.Obliging →
        ∀ h time,
          (∃ n, (s.runScript host h (.life a) time).result = .ok n) ∧
          (s.runScript host h (.life a) time).host = b.act (s.stage host a p time) 0 h ∧
          (scriptAt (s.runScript host h (.life a) time).scene.states (.life a)).isTerminated = true ∧
          ∀ id, id ≠ .life a →
            scriptAt (s.runScript host h (.life a) time).scene.states id = scriptAt s.states id) := by
  refine ⟨⟨source.compileScene_diagnostics .standard, fun d hd =>
    b.script_ne_of_mem_findings hbytes hb hjumps hd⟩, ?_⟩
  intro s hs
  obtain ⟨p, hp, hassembled⟩ := exists_assembled hbytes hb hjumps hs
  refine ⟨p, hp, ?_⟩
  intro hr hheadless hgas host hhost h time
  have hactor := hs.actor_lt hp
  obtain ⟨hresult, hgame, f, hstates, hf⟩ := runScript_assembled hp hassembled hb hactor hs.size
    hhost hr hheadless hgas h time
  refine ⟨hresult, hgame, ?_, ?_⟩
  · rw [hstates, scriptAt_modifyScript_self hactor, ScriptState.isTerminated, (hf _).1]
    rfl
  · intro id hid
    rw [hstates, scriptAt_modifyScript_of_ne hid]

/-- A program with blocks that end in the same place, a chain of each kind and an empty part is
compiled without a word, and the game is asked and told what it says. -/
theorem runScript_structured_nested :
    let zone : Clause := ⟨⟨⟨0x03, "ZONE", .u8, none, .host⟩, none⟩,
      ⟨⟨0x00, "==", .eq⟩, ⟨.u8, .number 1⟩⟩⟩
    let track : Clause := ⟨⟨⟨0x0A, "CURRENT_TRACK_OBJ", .u8, some .actor, .actorTrack⟩,
      some ⟨.actor, .number 1⟩⟩, ⟨⟨0x05, "!=", .ne⟩, ⟨.u8, .number 3⟩⟩⟩
    let anim : GameCommand := ⟨.game 0x14 "ANIM_OBJ" [.actor, .u16],
      [⟨.actor, .number 1⟩, ⟨.u16, .number 5⟩]⟩
    let message : GameCommand := ⟨(Opcode.game 0x19 "MESSAGE" [.u16]).withCallState,
      [⟨.u16, .number 12⟩]⟩
    let b : Block := .ifElse ⟨true, [track], zone⟩
      (.ifThen ⟨false, [track], zone⟩ (.call anim .done) .done) .done (.call message .done)
    let source : SceneSource := { actors := [{ life := b.script }, {}] }
    let s := ofCompiled (compileScene .standard source) {}
    b.InScene source.layout ∧ (compileScene .standard source).diagnostics.isEmpty = true ∧
      ∃ p, s.program? (.life 0) = some p ∧ p.instructions.size = 11 ∧
        (s.runScript .scribe [] (.life 0) {}).host = b.act (s.stage .scribe 0 p {}) 0 [] ∧
        b.act (s.stage .scribe 0 p {}) 0 [] = ["ZONE", "ANIM_OBJ", "MESSAGE"] := by
  intro zone track anim message b source s
  have hzone : zone.InScene source.layout := by
    refine ⟨⟨by decide +kernel, rfl, ?_⟩, ⟨by decide +kernel, rfl, by decide, by decide⟩, ?_⟩
    · simp [zone]
    · simp [zone]
  have htrack : track.InScene source.layout := by
    refine ⟨⟨by decide +kernel, rfl, ?_⟩, ⟨by decide +kernel, rfl, by decide, by decide⟩, ?_⟩
    · intro a ha
      cases ha
      exact ⟨by decide, by decide⟩
    · intro a ha
      cases ha
      exact ⟨by decide, by decide⟩
  have hanim : anim.InScene source.layout := by
    refine ⟨by decide +kernel, rfl, ⟨rfl, ?_⟩, ?_⟩
    · rw [List.forall_mem_cons, List.forall_mem_cons]
      exact ⟨⟨by decide, by decide⟩, ⟨by decide, by decide⟩, by simp⟩
    · rw [List.forall_mem_cons, List.forall_mem_cons]
      exact ⟨⟨by decide, by decide⟩, trivial, by simp⟩
  have hmessage : message.InScene source.layout := by
    refine ⟨by decide +kernel, rfl, ⟨rfl, ?_⟩, ?_⟩
    · rw [List.forall_mem_cons]
      exact ⟨⟨by decide, by decide⟩, by simp⟩
    · rw [List.forall_mem_cons]
      exact ⟨trivial, by simp⟩
  have hguard : ∀ anyOf, Guard.InScene source.layout ⟨anyOf, [track], zone⟩ :=
    fun _ => ⟨by simpa using htrack, hzone⟩
  have hb : b.InScene source.layout :=
    ⟨hguard true, ⟨hguard false, ⟨hanim, trivial⟩, trivial⟩, trivial, hmessage, trivial⟩
  have hjumps : ∀ c ∈ b.commands 0, ∀ t ∈ c.jumps, t < 65536 := by decide +kernel
  obtain ⟨-, hrun⟩ := runScript_structured (σ := List String) (a := 0) rfl hb hjumps
  obtain ⟨p, hp, hends⟩ := hrun s (plays_ofCompiled source {})
  have hsize : p.instructions.size = 11 := by
    have hcount : (s.program? (.life 0)).map (fun p => p.instructions.size) = some 11 := by
      decide +kernel
    rw [hp] at hcount
    exact Option.some.inj hcount
  have hgas : p.instructions.size ≤ s.config.gasLimit := by
    rw [hsize]
    decide +kernel
  obtain ⟨-, hgame, -⟩ := hends (by decide +kernel) rfl hgas .scribe Host.scribe_obliging [] {}
  have htold : (s.runScript .scribe [] (.life 0) {}).host = ["ZONE", "ANIM_OBJ", "MESSAGE"] := by
    decide +kernel
  exact ⟨hb, by decide +kernel, p, hp, hsize, hgame, hgame.symm.trans htold⟩

end Scene

end SceneScript
