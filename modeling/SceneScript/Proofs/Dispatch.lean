import SceneScript.Proofs.Conditionals
import SceneScript.Proofs.SwitchAssembly

/-! # Switches run the first arm that accepts

A switch, compiled, puts one question to the game, does what the first arm with a label that accepts
the answer says, or what the default part says if no arm does, and ends.

* `Switch.act` is what a switch does to the game, told without jumps.
* `Stage.holding` is the stage while a switch is open: nothing has changed but that the script keeps
  the value of the switch for the labels.
* `Stage.Leads.labels`: the labels of an arm lead to its body if one of them accepts the value, else
  to what is behind the arm. The two kinds of labels jump on opposite outcomes.
* `Stage.Leads.dispatch`: the arms and the default part lead to the end of the switch, by induction
  on the arms.
* `Stage.Finishes`: from an instruction to the end of the script, in at most as many steps as there
  are instructions left.
* `Scene.runScript_switch`: the whole, from bytes to the end of the run. -/

namespace SceneScript

/-! ### What switches do -/

def Test.accepts (t : Test) (v : Int) : Bool :=
  t.operator.comparison.test v (t.operand.value.number?.getD 0)

/-- Whether one of the labels of an arm accepts a value. -/
def Arm.accepts (a : Arm) (v : Int) : Bool := (a.others ++ [a.last]).any fun t => t.accepts v

/-- The stage on which the script keeps a value for the labels of a switch. -/
def Stage.holding {σ : Type} (g : Stage σ) (v : Option Int) : Stage σ :=
  { g with states := modifyScript g.states g.script fun t => { t with switchValue := v } }

/-- What arms and a default part do to the game, from an offset on: what the first arm that accepts
the value says, or the default part if there is none. -/
def dispatch {σ : Type} (g : Stage σ) (v : Int) (fallback : Option (List GameCommand)) :
    List Arm → Nat → σ → σ
  | [], start, h =>
    match fallback with
    | none => h
    | some body => (straight body).act g (start + 1) h
  | a :: rest, start, h =>
    if a.accepts v then (straight a.body).act g (a.inner start) h
    else dispatch g v fallback rest (a.next start) h

/-- What a switch does to the game when its condition has a value. -/
def Switch.act {σ : Type} (s : Switch) (g : Stage σ) (v : Int) (h : σ) : σ :=
  dispatch (g.holding (some v)) v s.fallback s.arms s.armsStart h

namespace Stage

variable {σ : Type} {g : Stage σ} {p : Program} {gas : Nat} {layout : Layout}

/-! ### Keeping the value -/

theorem Set.holding (hg : g.Set layout p) (v : Option Int) : (g.holding v).Set layout p := by
  refine ⟨hg.index, hg.kind, ?_, ?_, hg.host⟩
  · simpa [Stage.holding] using hg.actor
  · simpa [Stage.holding] using hg.size

theorem switchValue_holding (hg : g.Set layout p) (v : Option Int) :
    (scriptAt (g.holding v).states (g.holding v).script).switchValue = v := by
  rw [Stage.holding, scriptAt_modifyScript_self hg.actor]

/-- Every run that has come to an instruction ends its script, in at most as many steps as there are
instructions from there on. -/
def Finishes (g : Stage σ) (p : Program) (gas k : Nat) (h told : σ) : Prop :=
  ∀ r, g.Reached k h r → ∃ m r', Run.Steps (g.context p gas) m r r' ∧ k + m ≤ p.instructions.size ∧
    g.Over told r'

theorem Leads.finishes {k n : Nat} {h h' told : σ} (hleads : g.Leads p gas k h n h')
    (hend : g.Finishes p gas n h' told) : g.Finishes p gas k h told := by
  intro r hr
  obtain ⟨i, s, hsteps, hle, hs⟩ := hleads r hr
  obtain ⟨j, t, hsteps', hle', ht⟩ := hend s hs
  exact ⟨i + j, t, hsteps.trans hsteps', by omega, ht⟩

theorem Finishes.here (hg : g.Set layout p) {k start : Nat} {rest : List Command}
    (hlists : p.Lists k (endCommand start :: rest)) (h : σ) : g.Finishes p gas k h h := by
  intro r hr
  obtain ⟨i, hi, hbound⟩ := hlists.head
  have hop : i.operation = .finish := by
    rw [Instruction.operation, hbound.opcode, endCommand, opcodeOf_finish]
    rfl
  obtain ⟨r', hsteps, hover⟩ := finish (hr.stands hg hi) hop hr.entered hr.host
  exact ⟨1, r', hsteps, (Array.getElem?_eq_some_iff.mp hi).1, hover⟩

/-- An instruction that changes the value kept and nothing else. -/
theorem Reached.hold {k : Nat} {h : σ} {r : Run σ} (hr : g.Reached k h r) (hg : g.Set layout p)
    {i : Instruction} (hi : p.instructions[k]? = some i) {v : Option Int} {w : World σ}
    (hx : (Step.execute g.host (g.site k) i).run (g.world k h) =
      (.ok .advance, w.modifyScript g.script fun t => { t with switchValue := v }))
    (hstates : w.states = g.statesAt k) :
    ∃ r', Run.Steps (g.context p gas) 1 r r' ∧ (g.holding v).Reached (k + 1) w.host r' := by
  have hstep : Run.step (g.context p gas) k i r = _ := Run.step_of_execute rfl (by
    rw [hr.entered, hr.memory k (Nat.le_refl k), hr.host]
    exact hx)
  refine ⟨_, .more (hr.stands hg hi) hstep (.refl _), ?_, ?_, rfl⟩
  · change modifyScript (modifyScript w.states g.script _) g.script _ = _
    rw [hstates, statesAt, modifyScript_modifyScript, modifyScript_modifyScript, statesAt,
      Stage.holding, modifyScript_modifyScript]
    rfl
  · intro j hj
    rw [Stage.holding, ← hr.memory j (by omega)]
    exact Run.callState_record _ r.memory (by omega)

theorem Over.of_holding {v : Option Int} {told : σ} {r : Run σ} (h : (g.holding v).Over told r) :
    g.Over told r := by
  obtain ⟨⟨f, hstates, hf⟩, hhost⟩ := h
  refine ⟨⟨fun t => f { t with switchValue := v }, ?_, fun t => hf _⟩, hhost⟩
  rw [hstates, Stage.holding, modifyScript_modifyScript]

/-- What ends the script while a value is kept ends it in any case. -/
theorem Finishes.hold (hg : g.Set layout p) {k : Nat} {i : Instruction} {h told : σ} {w : World σ}
    {v : Option Int} (hi : p.instructions[k]? = some i)
    (hx : (Step.execute g.host (g.site k) i).run (g.world k h) =
      (.ok .advance, w.modifyScript g.script fun t => { t with switchValue := v }))
    (hstates : w.states = g.statesAt k)
    (hend : (g.holding v).Finishes p gas (k + 1) w.host told) : g.Finishes p gas k h told := by
  intro r hr
  obtain ⟨r₁, hsteps₁, hr₁⟩ : ∃ r', Run.Steps (g.context p gas) 1 r r' ∧ _ :=
    hr.hold hg hi hx hstates
  obtain ⟨m, r₂, hsteps₂, hle, hover⟩ := hend r₁ hr₁
  exact ⟨1 + m, r₂, hsteps₁.trans hsteps₂, by omega, hover.of_holding⟩

/-- A switch keeps the answer of the game. -/
theorem run_execute_switch (hg : g.Set layout p) {k : Condition} (hk : k.Conforms .standard)
    (hscene : ∀ a ∈ k.param, a.InScene layout) (hhost : k.predicate.source = .host) {start : Nat}
    {i : Instruction} (hi : (k.opening start).Bound g.index i) {h h' : σ} {v : Int}
    (hanswer : g.host.evaluate (g.query start k) h = (.ok v, h')) :
    (Step.execute g.host (g.site (g.index start)) i).run (g.world (g.index start) h) =
      (.ok .advance, (g.world (g.index start) h').modifyScript g.script
        fun t => { t with switchValue := some v }) := by
  have hop : i.operation = .switch := by
    rw [Instruction.operation, hi.opcode, Condition.opening, opcodeOf_switch]
    rfl
  have hcondition : i.predicate = .ok ⟨k.predicate, k.param.map Argument.bound⟩ := by
    unfold Instruction.predicate
    rw [hi.condition]
    rfl
  have hask : g.ask start k h = (v, h') := by
    unfold ask
    rw [hhost]
    simp only [hanswer]
    rfl
  have hvalue := run_evaluate hg hk hscene i start h fun _ => ⟨v, by rw [hanswer]⟩
  rw [hask] at hvalue
  unfold Step.execute
  rw [hop]
  dsimp only
  unfold Step.openSwitch
  rw [hcondition]
  change (Step.evaluate g.host (g.site (g.index start)) i
    ⟨k.predicate, k.param.map Argument.bound⟩ >>= _).run _ = _
  rw [Exec.run_bind hvalue]
  rfl

theorem execute_endSwitch {i : Instruction} (hop : i.operation = .endSwitch) (host : Host σ)
    (site : Site) (w : World σ) : (Step.execute host site i).run w =
      (.ok .advance, w.modifyScript site.script fun t => { t with switchValue := none }) := by
  unfold Step.execute
  rw [hop]
  rfl

/-! ### Labels and bodies -/

theorem run_execute_label (hg : g.Set layout p) {v : Int}
    (hv : (scriptAt g.states g.script).switchValue = some v) {t : Test} {o : Operation}
    (ho : o ∈ labelOperations) {start target : Nat} {i : Instruction}
    (hi : (t.label o start target).Bound g.index i) (k : Nat) (h : σ) :
    (Step.execute g.host (g.site k) i).run (g.world k h) =
      (.ok (Step.branch (t.accepts v == (o == .orCaseArm)) (g.index target)), g.world k h) := by
  have hop : i.operation = o := by
    rw [Instruction.operation, hi.opcode]
    exact (opcodeOf_label o ho).1
  have htest : i.comparison = .ok (Compile.test t) := by
    unfold Instruction.comparison
    rw [hi.test]
    rfl
  have hkept : (((g.world k h).actor g.script.actor).get g.script.kind).switchValue = some v := by
    rw [actor_world hg, caller, ActorState.get_modify_self]
    exact hv
  have hlabel : ∀ jumpOn, (Step.caseLabel (g.site k) i jumpOn).run (g.world k h) =
      (.ok (Step.branch (t.accepts v == jumpOn) (g.index target)), g.world k h) := by
    intro jumpOn
    have hdest : (Step.demand i (i.targetAt 0)).run (g.world k h) =
        (.ok (g.index target), g.world k h) := by
      rw [targetAt_of_bound hi rfl]
      rfl
    have hown : (Step.own (g.site k)).run (g.world k h) =
        (.ok (((g.world k h).actor g.script.actor).get g.script.kind), g.world k h) := rfl
    unfold Step.caseLabel
    rw [Exec.run_bind hdest, Exec.run_bind hown]
    rw [hkept, htest]
    rfl
  unfold Step.execute
  rw [hop]
  simp only [labelOperations, List.mem_cons, List.not_mem_nil, or_false] at ho
  rcases ho with rfl | rfl
  · exact hlabel false
  · exact hlabel true

/-- A label leads to its target, or to what is behind it. -/
theorem Leads.label (hg : g.Set layout p) {v : Int}
    (hv : (scriptAt g.states g.script).switchValue = some v) {t : Test} {o : Operation}
    (ho : o ∈ labelOperations) {k start target : Nat} {rest : List Command}
    (hlists : p.Lists k (t.label o start target :: rest)) (hlt : k < p.indexAt target) (h : σ) :
    g.Leads p gas k h
      (if t.accepts v = (o == .orCaseArm) then p.indexAt target else k + 1) h := by
  obtain ⟨i, hi, hbound⟩ := hlists.head
  rw [← hg.index] at hbound hlt ⊢
  have hx := run_execute_label hg hv ho hbound k h
  by_cases haccepts : t.accepts v = (o == .orCaseArm)
  · rw [if_pos haccepts]
    rw [haccepts, beq_self_eq_true] at hx
    exact Leads.jump hg hi hx rfl hlt
  · rw [if_neg haccepts]
    rw [beq_eq_false_iff_ne.mpr haccepts] at hx
    exact Leads.one hg hi hx rfl (fun _ => rfl) (Nat.lt_succ_self k)

/-- **The labels of an arm** lead to its body if one of them accepts the value, else to what is
behind the arm. -/
theorem Leads.labels (hg : g.Set layout p) {v : Int}
    (hv : (scriptAt g.states g.script).switchValue = some v) {body next : Nat} {last : Test}
    {others : List Test} {k start : Nat}
    (hlists : p.Lists k (labelCommands body next last others start))
    (hbody : p.indexAt body = k + (labelCommands body next last others start).length)
    (hnext : p.indexAt body ≤ p.indexAt next) (h : σ) :
    g.Leads p gas k h
      (p.indexAt (if (others ++ [last]).any (fun t => t.accepts v) then body else next)) h := by
  induction others generalizing k start with
  | nil =>
      have hbody : p.indexAt body = k + 1 := hbody
      have hlabel : g.Leads p gas k h _ h := Leads.label hg hv
        (show .caseArm ∈ labelOperations by decide) hlists (by omega) h
      cases haccepts : last.accepts v with
      | true => simpa [haccepts, hbody] using hlabel
      | false => simpa [haccepts] using hlabel
  | cons t rest ih =>
      rw [labelCommands, List.length_cons] at hbody
      have hlabel : g.Leads p gas k h _ h := Leads.label hg hv
        (show .orCaseArm ∈ labelOperations by decide) hlists (by omega) h
      cases haccepts : t.accepts v with
      | true => simpa [haccepts] using hlabel
      | false =>
          have hrest := ih hlists.tail (by omega)
          have hlabel : g.Leads p gas k h (k + 1) h := by simpa [haccepts] using hlabel
          simpa [haccepts] using hlabel.trans hrest

theorem Leads.calls (hg : g.Set layout p) {body : List GameCommand}
    (hbody : ∀ c ∈ body, c.InScene layout) {k start : Nat}
    (hlists : p.Lists k ((straight body).commands start)) (h : σ) :
    g.Leads p gas k h (k + ((straight body).commands start).length)
      ((straight body).act g start h) := by
  induction body generalizing k start h with
  | nil => exact .refl k h
  | cons c rest ih =>
      rw [List.forall_mem_cons] at hbody
      have hcommands : (straight (c :: rest)).commands start =
          c.command start :: (straight rest).commands (start + c.size) := rfl
      rw [hcommands] at hlists ⊢
      obtain ⟨i, hi, hbound⟩ := hlists.head
      have hindex : g.index start = k := by
        rw [hg.index]
        exact hlists.indexAt_head rfl
      rw [← hg.index] at hbound
      obtain ⟨w, hx, hstates, hhost⟩ := run_execute_call hg hbody.1 hbound h
      rw [hindex] at hx hstates
      have hcall : g.Leads p gas k h (k + 1) w.host :=
        Leads.one hg hi hx hstates (fun _ => rfl) (Nat.lt_succ_self k)
      rw [hhost] at hcall
      have hrest := ih hbody.2 hlists.tail (g.tell start c h)
      rw [List.length_cons, Nat.add_comm _ 1, ← Nat.add_assoc]
      exact hcall.trans hrest

/-! ### Arms -/

theorem Leads.leave (hg : g.Set layout p) {k start target : Nat}
    (hlists : p.Lists k [breakCommand start target]) (hlt : k < p.indexAt target) (h : σ) :
    g.Leads p gas k h (p.indexAt target) h := by
  obtain ⟨i, hi, hbound⟩ := hlists.head
  have hop : i.operation ∈ [.elseThen, .breakOff] := by
    rw [Instruction.operation, hbound.opcode, breakCommand, opcodeOf_breakOff]
    exact List.mem_cons_of_mem _ List.mem_cons_self
  exact Leads.jump hg hi (execute_jump hop (targetAt_of_bound hbound rfl) _ _ _) rfl hlt

/-- An arm that accepts the value does what it says and leaves the switch; another one leads to what
is behind it. -/
theorem Leads.arm (hg : g.Set layout p) {v : Int}
    (hv : (scriptAt g.states g.script).switchValue = some v) {a : Arm} {predicate : Predicate}
    (ha : a.InScene layout predicate) {k finish start : Nat}
    (hlists : p.Lists k (a.commands finish start))
    (hnext : k + (a.commands finish start).length ≤ p.indexAt (a.next start))
    (hfinish : k + (a.commands finish start).length ≤ p.indexAt finish) (h : σ) :
    g.Leads p gas k h (p.indexAt (if a.accepts v then finish else a.next start))
      (if a.accepts v then (straight a.body).act g (a.inner start) h else h) := by
  have hlabels := hlists.left
  have hbody := hlists.right.left
  have hbreak := hlists.right.right
  have hinner := hlists.right.indexAt_start (a.placed_body finish start) (by simp)
  simp only [Arm.commands, List.length_append, List.length_singleton] at hnext hfinish
  have hlabels : g.Leads p gas k h _ h := Leads.labels hg hv hlabels hinner (by omega) h
  cases haccepts : a.accepts v with
  | false =>
      have hnone : ¬ (a.others ++ [a.last]).any (fun t => t.accepts v) := by
        rw [← Arm.accepts, haccepts]
        decide
      rwa [if_neg hnone] at hlabels
  | true =>
      have hsome : (a.others ++ [a.last]).any (fun t => t.accepts v) = true := haccepts
      rw [if_pos hsome, hinner] at hlabels
      have hcalls : g.Leads p gas _ h _ _ := Leads.calls hg ha.body hbody h
      exact (hlabels.trans hcalls).trans (Leads.leave hg hbreak (by omega) _)

theorem Leads.default (hg : g.Set layout p) {k start : Nat} {rest : List Command}
    (hlists : p.Lists k (bareCommand .defaultArm start :: rest)) (h : σ) :
    g.Leads p gas k h (k + 1) h := by
  obtain ⟨i, hi, hbound⟩ := hlists.head
  have hop : i.operation = .defaultArm := by
    rw [Instruction.operation, hbound.opcode]
    exact (opcodeOf_bare .defaultArm (by decide)).1
  exact Leads.one hg hi (execute_idle (by simp [hop]) _ _ _) rfl (fun _ => rfl)
    (Nat.lt_succ_self k)

theorem le_indexAt {commands : List Command} {k start : Nat} (hlists : p.Lists k commands)
    (hplaced : PlacedFrom start commands)
    (hend : k + commands.length ≤ p.indexAt (start + (commands.flatMap Command.bytes).length)) :
    k ≤ p.indexAt start := by
  cases commands with
  | nil => exact hend
  | cons c rest => exact Nat.le_of_eq (hlists.indexAt_head hplaced.head).symm

/-- **Arms and a default part** do to the game what the first arm that accepts the value says, or the
default part, and lead to the end of the switch: by its offset, or running into it. -/
theorem Leads.dispatch (hg : g.Set layout p) {v : Int}
    (hv : (scriptAt g.states g.script).switchValue = some v) {arms : List Arm}
    {fallback : Option (List GameCommand)} {predicate : Predicate}
    (harms : ∀ a ∈ arms, a.InScene layout predicate)
    (hfallback : ∀ body ∈ fallback, ∀ c ∈ body, c.InScene layout) {k finish start : Nat}
    (hlists : p.Lists k (branchCommands finish arms fallback start))
    (hend : fallbackNext fallback (armsNext arms start) = finish)
    (hfinish : k + (branchCommands finish arms fallback start).length ≤ p.indexAt finish) (h : σ) :
    ∃ n, (n = p.indexAt finish ∨ n = k + (branchCommands finish arms fallback start).length) ∧
      g.Leads p gas (p.indexAt start) h n (dispatch g v fallback arms start h) := by
  induction arms generalizing k start with
  | nil =>
      cases fallback with
      | none =>
          obtain rfl : start = finish := hend
          exact ⟨_, .inl rfl, .refl _ h⟩
      | some body =>
          have hcommands : branchCommands finish [] (some body) start =
              bareCommand .defaultArm start :: (straight body).commands (start + 1) := rfl
          rw [hcommands] at hlists ⊢
          have hdefault : g.Leads p gas k h (k + 1) h := Leads.default hg hlists h
          have hcalls : g.Leads p gas (k + 1) h _ _ :=
            Leads.calls hg (hfallback body rfl) hlists.tail h
          refine ⟨_, .inr rfl, ?_⟩
          rw [hlists.indexAt_head rfl]
          rw [List.length_cons, Nat.add_comm _ 1, ← Nat.add_assoc]
          exact hdefault.trans hcalls
  | cons a rest ih =>
      rw [List.forall_mem_cons] at harms
      have hcommands : branchCommands finish (a :: rest) fallback start =
          a.commands finish start ++ branchCommands finish rest fallback (a.next start) :=
        List.append_assoc _ _ _
      rw [hcommands] at hlists hfinish ⊢
      rw [List.length_append, ← Nat.add_assoc] at hfinish ⊢
      have hstart : p.indexAt start = k :=
        hlists.left.indexAt_start (a.placed_commands finish start) (by simp [Arm.commands])
      have hnext : k + (a.commands finish start).length ≤ p.indexAt (a.next start) := by
        refine le_indexAt hlists.right (placed_branchCommands _ _ _ _) ?_
        rw [length_bytes_branchCommands]
        exact Nat.le_trans hfinish (Nat.le_of_eq (congrArg p.indexAt hend.symm))
      have harm : g.Leads p gas k h _ _ :=
        Leads.arm hg hv harms.1 hlists.left hnext (by omega) h
      rw [hstart, SceneScript.dispatch]
      cases haccepts : a.accepts v with
      | true =>
          rw [haccepts] at harm
          exact ⟨_, .inl rfl, harm⟩
      | false =>
          rw [haccepts] at harm
          obtain ⟨n, hn, hrest⟩ := ih harms.2 hlists.right hend hfinish
          exact ⟨n, hn, harm.trans hrest⟩

/-! ### From the first instruction to the END -/

theorem Finishes.endSwitch (hg : g.Set layout p) {k start : Nat} {c : Command}
    {rest : List Command} (hop : c.opcode.operation = .endSwitch)
    (hlists : p.Lists k (c :: endCommand start :: rest)) (h : σ) : g.Finishes p gas k h h := by
  obtain ⟨i, hi, hbound⟩ := hlists.head
  have hop : i.operation = .endSwitch := by
    rw [Instruction.operation, hbound.opcode, hop]
  exact .hold hg hi (execute_endSwitch hop _ _ _) rfl (.here (hg.holding none) hlists.tail h)

/-- What is behind a switch ends the script, whether it is run into or jumped to. -/
theorem Finishes.tail (hg : g.Set layout p) {s : Switch} {k n : Nat}
    (hlists : p.Lists k (s.added ++ s.tail)) (hn : n = p.indexAt s.finish ∨ n = k) (h : σ) :
    g.Finishes p gas n h h := by
  unfold Switch.added Switch.tail at hlists
  cases hclosed : s.closed with
  | true =>
      simp only [hclosed, Bool.true_or, if_true, List.nil_append] at hlists
      obtain rfl : n = k := hn.elim (fun h => h.trans (hlists.indexAt_head rfl)) id
      exact .endSwitch hg (opcodeOf_bare .endSwitch (by decide)).1 hlists h
  | false =>
      cases harms : s.arms.isEmpty with
      | true =>
          simp only [hclosed, harms, Bool.or_true, if_true, Bool.false_eq_true, if_false,
            List.nil_append] at hlists
          obtain rfl : n = k := hn.elim (fun h => h.trans (hlists.indexAt_head rfl)) id
          exact .here hg hlists h
      | false =>
          -- A jump to the end of the switch leads behind the end that was added.
          simp only [hclosed, harms, Bool.or_false, Bool.false_eq_true, if_false,
            List.singleton_append] at hlists
          rcases hn with rfl | rfl
          · rw [hlists.tail.indexAt_head rfl]
            exact .here hg hlists.tail h
          · refine .endSwitch hg ?_ hlists h
            rw [Command.implicit, Catalog.standard.marker_operation rfl]

theorem Finishes.branches (hg : g.Set layout p) {v : Int}
    (hv : (scriptAt g.states g.script).switchValue = some v) {s : Switch} (hs : s.InScene layout)
    {k : Nat} (hlists : p.Lists k (s.inside ++ (s.added ++ s.tail))) (h : σ) :
    g.Finishes p gas k h (SceneScript.dispatch g v s.fallback s.arms s.armsStart h) := by
  have hbehind := hlists.right
  have htail : s.tail ≠ [] := by
    unfold Switch.tail
    split <;> simp
  have hfinish := hbehind.right.indexAt_start s.placed_tail htail
  have hstart : p.indexAt s.armsStart = k := by
    by_cases hnone : s.inside = []
    · -- Where nothing is inside the switch, nothing is added behind it either.
      have hsame : s.armsStart = s.finish := by
        have hlength := length_bytes_branchCommands s.finish s.arms s.fallback s.armsStart
        rw [← Switch.inside, hnone] at hlength
        exact hlength
      rw [hsame, hfinish, hnone, Switch.added_of_inside hnone]
      rfl
    · exact hlists.left.indexAt_start (placed_branchCommands _ _ _ _) hnone
  have hbound : k + s.inside.length ≤ p.indexAt s.finish := by omega
  obtain ⟨n, hn, hleads⟩ : ∃ n, _ ∧ g.Leads p gas _ h n _ :=
    Leads.dispatch hg hv hs.arms hs.fallback hlists.left rfl hbound h
  rw [hstart] at hleads
  exact hleads.finishes (.tail hg hbehind hn _)

/-- **A compiled switch runs to its END**, in as many steps as it has instructions at most. -/
theorem Begun.over_switch {h h' : σ} {r : Run σ} (hr : g.Begun h r) (hg : g.Set layout p)
    {s : Switch} (hs : s.InScene layout) (hlists : p.Lists 0 s.read) {v : Int}
    (hanswer : g.host.evaluate (g.query 0 s.condition) h = (.ok v, h')) :
    ∃ n r', Run.Steps (g.context p gas) n r r' ∧ n ≤ p.instructions.size ∧
      g.Over (s.act g v h') r' := by
  obtain ⟨first, hfirst, hbehavior⟩ := hlists.head
  have hop : first.operation = .behaviour := by
    rw [Instruction.operation, hbehavior.opcode]
    exact operation_behaviorCommand
  obtain ⟨i, hi, hbound⟩ := hlists.tail.head
  have hindex : g.index 0 = 1 := by
    rw [hg.index]
    exact hlists.tail.indexAt_head rfl
  rw [← hg.index] at hbound
  have hx := run_execute_switch hg hs.condition hs.param hs.hosted hbound hanswer
  rw [hindex] at hx
  have hend : g.Finishes p gas 1 h (s.act g v h') := by
    refine .hold hg hi hx rfl ?_
    exact Finishes.branches (hg.holding (some v)) (switchValue_holding hg (some v)) hs
      hlists.tail.tail h'
  obtain ⟨r₁, hsteps₁, hr₁⟩ : ∃ r', Run.Steps (g.context p gas) 1 r r' ∧ g.Reached 1 h r' :=
    hr.enter hg hfirst hop
  obtain ⟨m, r₂, hsteps₂, hle, hover⟩ := hend r₁ hr₁
  exact ⟨1 + m, r₂, hsteps₁.trans hsteps₂, hle, hover⟩

end Stage

/-! ### Switches in a scene -/

namespace Scene

variable {σ : Type}

theorem exists_lists {source : SceneSource} {a : Nat} {w : Switch}
    (hbytes : source.bytes? (.life a) = some w.script) (hw : w.InScene source.layout)
    (hjumps : ∀ c ∈ w.inside, ∀ t ∈ c.jumps, t < 65536) {s : Scene} (hs : s.Plays source) :
    ∃ p, s.program? (.life a) = some p ∧ p.Lists 0 w.read := by
  refine ⟨_, ?_, hw.lists hbytes hjumps⟩
  rw [hs.program?, source.parsed?_of_bytes hbytes, Option.map_some]

/-- **A switch runs the first arm that accepts.** The script of a switch that names only actors and
points of its scene, and whose jumps fit in sixteen bits, is compiled without a diagnostic. In a
scene that is not headless, from its first instruction and with a budget of as many instructions as
it has, it asks a game that accepts every command for the value of its condition, whatever it is,
does to the game what the first arm with a label that accepts the value says, or the default part if
no arm does, ends, and changes no other script. -/
theorem runScript_switch {source : SceneSource} {a : Nat} {w : Switch}
    (hbytes : source.bytes? (.life a) = some w.script) (hw : w.InScene source.layout)
    (hjumps : ∀ c ∈ w.inside, ∀ t ∈ c.jumps, t < 65536) :
    ((compileScene .standard source).diagnostics =
        DiagnosticLog.empty.pushAll (source.findings .standard) ∧
      ∀ d ∈ source.findings .standard, d.location.script ≠ .life a) ∧
    ∀ s : Scene, s.Plays source → ∃ p, s.program? (.life a) = some p ∧
      ((scriptAt s.states (.life a)).reentry = some 0 → s.config.headless = false →
        p.instructions.size ≤ s.config.gasLimit → ∀ host : Host σ, host.Compliant →
        ∀ h time v h',
          host.evaluate ((s.stage host a p time).query 0 w.condition) h = (.ok v, h') →
          (∃ n, (s.runScript host h (.life a) time).result = .ok n) ∧
          (s.runScript host h (.life a) time).host = w.act (s.stage host a p time) v h' ∧
          (scriptAt (s.runScript host h (.life a) time).scene.states (.life a)).isTerminated = true ∧
          ∀ id, id ≠ .life a →
            scriptAt (s.runScript host h (.life a) time).scene.states id = scriptAt s.states id) := by
  refine ⟨⟨source.compileScene_diagnostics .standard, fun d hd =>
    hw.script_ne_of_mem_findings hbytes hjumps hd⟩, ?_⟩
  intro s hs
  obtain ⟨p, hp, hlists⟩ := exists_lists hbytes hw hjumps hs
  refine ⟨p, hp, ?_⟩
  intro hr hheadless hgas host hhost h time v h' hanswer
  have hactor := hs.actor_lt hp
  have hset : (s.stage host a p time).Set source.layout p := ⟨rfl, rfl, hactor, hs.size, hhost⟩
  obtain ⟨hresult, hgame, f, hstates, hf⟩ := runScript_of_over hp hactor hr hheadless hgas
    fun r hbegun => hbegun.over_switch hset hw hlists hanswer
  refine ⟨hresult, hgame, ?_, ?_⟩
  · rw [hstates, scriptAt_modifyScript_self hactor, ScriptState.isTerminated, (hf _).1]
    rfl
  · intro id hid
    rw [hstates, scriptAt_modifyScript_of_ne hid]

/-- A switch with two arms and a default part, whose end has no command of its own, is compiled
without a word. The second label of its second arm accepts the answer of the game. -/
theorem runScript_switch_second :
    let zone : Condition := ⟨⟨0x03, "ZONE", .u8, none, .host⟩, none⟩
    let equals (n : Int) : Test := ⟨⟨0x00, "==", .eq⟩, ⟨.u8, .number n⟩⟩
    let anim : GameCommand := ⟨.game 0x14 "ANIM_OBJ" [.actor, .u16],
      [⟨.actor, .number 1⟩, ⟨.u16, .number 5⟩]⟩
    let message : GameCommand := ⟨(Opcode.game 0x19 "MESSAGE" [.u16]).withCallState,
      [⟨.u16, .number 12⟩]⟩
    let w : Switch :=
      { condition := zone
        arms := [⟨[equals 7], equals 8, [anim]⟩, ⟨[equals 0, equals 1], equals 2, [message, anim]⟩]
        fallback := some [anim]
        closed := false }
    let source : SceneSource := { actors := [{ life := w.script }, {}] }
    let s := ofCompiled (compileScene .standard source) {}
    w.InScene source.layout ∧ (compileScene .standard source).diagnostics.isEmpty = true ∧
      ∃ p, s.program? (.life 0) = some p ∧ p.instructions.size = 16 ∧
        (s.runScript .scribe [] (.life 0) {}).host = w.act (s.stage .scribe 0 p {}) 1 ["ZONE"] ∧
        w.act (s.stage .scribe 0 p {}) 1 ["ZONE"] = ["ZONE", "MESSAGE", "ANIM_OBJ"] := by
  intro zone equals anim message w source s
  have hoperator : Catalog.standard.operator? 0x00 = some ⟨0x00, "==", .eq⟩ := by decide +kernel
  have hequals : ∀ n : Int, 0 ≤ n → n < 256 → (equals n).Conforms .standard zone.predicate :=
    fun n hle hlt => ⟨hoperator, rfl, hle, hlt⟩
  have hanim : anim.InScene source.layout := by
    refine ⟨by decide +kernel, rfl, ⟨rfl, ?_⟩, ?_⟩
    · rw [List.forall_mem_cons, List.forall_mem_cons]
      exact ⟨⟨by decide, by decide⟩, ⟨by decide, by decide⟩, by simp⟩
    · rw [List.forall_mem_cons, List.forall_mem_cons]
      exact ⟨⟨by decide, by decide⟩, trivial, by simp⟩
  have hmessage : message.InScene source.layout := by
    refine ⟨by decide +kernel, rfl, ⟨rfl, ?_⟩, ?_⟩
    · rw [List.forall_mem_cons]
      exact ⟨⟨by decide, by decide⟩, by simp⟩
    · rw [List.forall_mem_cons]
      exact ⟨trivial, by simp⟩
  have hw : w.InScene source.layout := by
    refine ⟨⟨by decide +kernel, rfl, by simp [w, zone]⟩, rfl, by simp [w, zone], ?_, ?_⟩
    · simp only [w, List.forall_mem_cons]
      refine ⟨⟨?_, hequals 8 (by decide) (by decide), by simpa using hanim⟩,
        ⟨?_, hequals 2 (by decide) (by decide), by simpa using ⟨hmessage, hanim⟩⟩, by simp⟩
      · simpa using hequals 7 (by decide) (by decide)
      · simpa using ⟨hequals 0 (by decide) (by decide), hequals 1 (by decide) (by decide)⟩
    · rintro body ⟨⟩
      simpa using hanim
  have hjumps : ∀ c ∈ w.inside, ∀ t ∈ c.jumps, t < 65536 := by decide +kernel
  obtain ⟨-, hrun⟩ := runScript_switch (σ := List String) (a := 0) rfl hw hjumps
  obtain ⟨p, hp, hends⟩ := hrun s (plays_ofCompiled source {})
  have hsize : p.instructions.size = 16 := by
    have hcount : (s.program? (.life 0)).map (fun p => p.instructions.size) = some 16 := by
      decide +kernel
    rw [hp] at hcount
    exact Option.some.inj hcount
  have hgas : p.instructions.size ≤ s.config.gasLimit := by
    rw [hsize]
    decide +kernel
  obtain ⟨-, hgame, -⟩ := hends (by decide +kernel) rfl hgas .scribe
    Host.scribe_obliging.compliant [] {} 1 ["ZONE"] rfl
  have htold : (s.runScript .scribe [] (.life 0) {}).host = ["ZONE", "MESSAGE", "ANIM_OBJ"] := by
    decide +kernel
  exact ⟨hw, by decide +kernel, p, hp, hsize, hgame, hgame.symm.trans htold⟩

end Scene

end SceneScript
