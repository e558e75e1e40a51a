import SceneScript.Proofs.OffsetMap
import SceneScript.Proofs.Switches

/-! # Switches, compiled

The script of a switch is read back as its commands, behind the start of a behavior. The end of the
switch is added where it has no command of its own and an arm leads to it
(`Switch.parseScript_read`). It must not be added earlier: while the labels and the breaks of the arms extend the reach of the
switch, no command but a label may stand where the reach ends (`SwitchFrame.Stays`).

There are no other blocks, so that the commands that were read are the instructions of the program,
one by one.

* `Program.Lists` says that commands are instructions in a row, with their arguments bound, and that
  their offsets lead to them; a compiled switch lists what was read (`Switch.InScene.lists`).
* Nothing is reported about the script (`Switch.InScene.script_ne_of_mem_findings`). -/

namespace SceneScript

/-! ### The reach of an open switch -/

/-- The frame of a switch behind a command: its jumps extend the reach. -/
def SwitchFrame.past (f : SwitchFrame) (c : Command) : SwitchFrame :=
  c.jumps.foldl (fun f t => f.extend t.toNat) f

/-- Commands in front of which a switch is not closed, and its frame behind them: none of them
stands where the reach of the frame ends, unless it is a label. -/
inductive SwitchFrame.Stays : SwitchFrame → List Command → SwitchFrame → Prop
  | nil (f : SwitchFrame) : f.Stays [] f
  | cons {f g : SwitchFrame} {c : Command} {rest : List Command} :
      c.opcode.operation.isCaseLabel = true ∨ (∀ o, c.offset = some o → f.reach ≠ some o) →
      (f.past c).Stays rest g → f.Stays (c :: rest) g

theorem SwitchFrame.Stays.append {f g k : SwitchFrame} {u v : List Command} (hu : f.Stays u g)
    (hv : g.Stays v k) : f.Stays (u ++ v) k := by
  induction hu with
  | nil => exact hv
  | cons hopen _ ih => exact .cons hopen (ih hv)

/-- A reach that is extended within bounds. -/
theorem SwitchFrame.reach_extend {f : SwitchFrame} {n t : Nat} (hf : ∀ r ∈ f.reach, r ≤ n)
    (ht : t ≤ n) : ∃ r, (f.extend t).reach = some r ∧ t ≤ r ∧ r ≤ n := by
  unfold SwitchFrame.extend
  cases hr : f.reach with
  | none => exact ⟨t, rfl, Nat.le_refl t, ht⟩
  | some r =>
      have := hf r hr
      exact ⟨max r t, rfl, by omega, by omega⟩

/-- Behind the labels of an arm the switch reaches to the next arm at least. -/
theorem stays_labelCommands {body next finish : Nat} (hbody : body ≤ finish) (hnext : next ≤ finish)
    (last : Test) (others : List Test) (start : Nat) {f : SwitchFrame}
    (hf : ∀ r ∈ f.reach, r ≤ finish) :
    ∃ g r, f.Stays (labelCommands body next last others start) g ∧ g.reach = some r ∧ next ≤ r ∧
      r ≤ finish := by
  have hlabels : ∀ o ∈ labelOperations, o.isCaseLabel = true := by decide
  have hlabel : ∀ o ∈ labelOperations, (opcodeOf o).operation.isCaseLabel = true := by
    intro o ho
    rw [(opcodeOf_label o ho).1]
    exact hlabels o ho
  induction others generalizing start f with
  | nil =>
      obtain ⟨r, hr⟩ := SwitchFrame.reach_extend hf hnext
      exact ⟨f.extend next, r, .cons (.inl (hlabel .caseArm (by decide))) (.nil _), hr⟩
  | cons t rest ih =>
      obtain ⟨r, hr, -, hle⟩ := SwitchFrame.reach_extend hf hbody
      obtain ⟨g, r', hstays, hreach⟩ := ih (start + t.size) (f := f.extend body) (by simp [hr, hle])
      exact ⟨g, r', .cons (.inl (hlabel .orCaseArm (by decide))) hstays, hreach⟩

theorem SwitchFrame.past_call {layout : Layout} {c : GameCommand} (hc : c.InScene layout)
    (f : SwitchFrame) (start : Nat) : f.past (c.command start) = f := by
  rw [SwitchFrame.past, hc.jumps_command]
  rfl

/-- Commands in front of the reach of a switch leave it open. -/
theorem stays_straight {layout : Layout} {body : List GameCommand}
    (hbody : ∀ c ∈ body, c.InScene layout) {start : Nat} {f : SwitchFrame}
    (hf : ∀ r ∈ f.reach, start + (straight body).size ≤ r) :
    f.Stays ((straight body).commands start) f := by
  induction body generalizing start with
  | nil => exact .nil f
  | cons c rest ih =>
      rw [List.forall_mem_cons] at hbody
      have hsize : (straight (c :: rest)).size = c.size + (straight rest).size := rfl
      have hpos : 0 < c.size := by unfold GameCommand.size; omega
      refine .cons (.inr ?_) ?_
      · intro o ho hr
        obtain rfl : start = o := Option.some.inj ho
        have := hf start hr
        omega
      · rw [SwitchFrame.past_call hbody.1]
        refine ih hbody.2 ?_
        intro r hr
        have := hf r hr
        omega

/-- Behind an arm the switch reaches to its end. -/
theorem Arm.InScene.stays {layout : Layout} {predicate : Predicate} {a : Arm}
    (ha : a.InScene layout predicate) {finish start : Nat} (hfinish : a.next start ≤ finish)
    {f : SwitchFrame} (hf : ∀ r ∈ f.reach, r ≤ finish) :
    ∃ g, f.Stays (a.commands finish start) g ∧ g.reach = some finish := by
  have hexit : a.exit start = a.inner start + (straight a.body).size := rfl
  have hnext : a.next start = a.exit start + 3 := rfl
  obtain ⟨g, r, hlabels, hr, hle, hle'⟩ :=
    stays_labelCommands (show a.inner start ≤ finish by omega) hfinish a.last a.others start hf
  have hbody : g.Stays ((straight a.body).commands (a.inner start)) g := by
    refine stays_straight ha.body ?_
    simp only [hr, Option.mem_def, Option.some.injEq]
    omega
  have hbreak : g.Stays [breakCommand (a.exit start) finish] (g.extend finish) := by
    refine .cons (.inr ?_) (.nil _)
    intro o ho hreach
    obtain rfl : a.exit start = o := Option.some.inj ho
    rw [hr, Option.some.injEq] at hreach
    omega
  obtain ⟨r', hr', hle₁, hle₂⟩ := SwitchFrame.reach_extend (f := g) (n := finish) (t := finish)
    (by simp [hr, hle']) (Nat.le_refl finish)
  refine ⟨g.extend finish, hlabels.append (hbody.append hbreak), ?_⟩
  rw [hr', Nat.le_antisymm hle₂ hle₁]

theorem le_armsNext (arms : List Arm) (start : Nat) : start ≤ armsNext arms start := by
  have h := length_bytes_armsCommands 0 arms start
  omega

theorem stays_armsCommands {layout : Layout} {predicate : Predicate} {arms : List Arm}
    (harms : ∀ a ∈ arms, a.InScene layout predicate) {finish start : Nat}
    (hfinish : armsNext arms start ≤ finish) {f : SwitchFrame} (hf : ∀ r ∈ f.reach, r ≤ finish) :
    ∃ g, f.Stays (armsCommands finish arms start) g ∧
      g.reach = if arms.isEmpty then f.reach else some finish := by
  induction arms generalizing start f with
  | nil => exact ⟨f, .nil f, rfl⟩
  | cons a rest ih =>
      rw [List.forall_mem_cons] at harms
      have hle := le_armsNext rest (a.next start)
      obtain ⟨g, hstays, hreach⟩ := harms.1.stays (Nat.le_trans hle hfinish) hf
      obtain ⟨k, hstays', hreach'⟩ := ih harms.2 hfinish (f := g) (by simp [hreach])
      refine ⟨k, hstays.append hstays', ?_⟩
      rw [hreach', hreach, ite_self]
      rfl

/-- **A switch stays open to its end**, and then reaches there if it has an arm. -/
theorem Switch.InScene.stays {layout : Layout} {s : Switch} (h : s.InScene layout) :
    ∃ g, SwitchFrame.Stays { predicate := s.condition.predicate } s.inside g ∧
      g.reach = if s.arms.isEmpty then none else some s.finish := by
  have hle : s.fallbackStart ≤ s.finish := by
    have := length_bytes_fallbackCommands s.fallback s.fallbackStart
    unfold Switch.finish
    omega
  obtain ⟨g, hstays, hreach⟩ := stays_armsCommands h.arms hle
    (f := { predicate := s.condition.predicate }) (by simp)
  refine ⟨g, hstays.append ?_, hreach⟩
  cases hbody : s.fallback with
  | none => exact .nil g
  | some body =>
      have hlabel : (opcodeOf .defaultArm).operation.isCaseLabel = true := by
        rw [(opcodeOf_bare .defaultArm (by decide)).1]
        rfl
      refine .cons (.inl hlabel) (stays_straight (h.fallback body hbody) ?_)
      intro r hr
      change g.reach = some r at hr
      rw [hreach] at hr
      split at hr
      · cases hr
      · obtain rfl := Option.some.inj hr
        rw [Switch.finish, hbody]
        exact Nat.le_refl _

/-! ### Reading a switch -/

/-- No conditional block is open and no behavior is due. -/
structure ParseState.Plain (s : ParseState) : Prop where
  blocks : s.blocks = []
  settled : s.behaviorDue = false

theorem ParseState.closeIfs_of_blocks {s : ParseState} (h : s.blocks = []) (catalog : Catalog)
    (position : Nat) : s.closeIfs catalog position = s := by
  obtain ⟨commands, offsets, behaviors, tracks, blocks, switches, number, due⟩ := s
  obtain rfl : blocks = [] := h
  simp [closeIfs]

theorem ParseState.closeSwitches_of_reach {s : ParseState} {position : Nat}
    (h : ∀ f ∈ s.switches.head?, f.reach ≠ some position) (catalog : Catalog) :
    s.closeSwitches catalog position = s := by
  obtain ⟨commands, offsets, behaviors, tracks, blocks, switches, number, due⟩ := s
  cases switches with
  | nil => simp [closeSwitches]
  | cons f rest =>
      have hne : (f.reach == some position) = false := beq_eq_false_iff_ne.mpr (h f rfl)
      simp [closeSwitches, hne]

/-- Without conditional blocks only switches are closed, and only where no label stands. -/
theorem ParseState.closeBlocks_of_blocks {s : ParseState} (h : s.blocks = []) (c : Cursor) :
    s.closeBlocks .standard .life c =
      if atCaseLabel .standard .life c then s else s.closeSwitches .standard c.position := by
  unfold closeBlocks
  rw [closeIfs_of_blocks h]

/-- Where no switch ends, nothing is added in front of a command. -/
theorem ParseState.Plain.ready_of_open {s : ParseState} (h : s.Plain) {c : Cursor}
    (hopen : atCaseLabel .standard .life c = true ∨
      ∀ f ∈ s.switches.head?, f.reach ≠ some c.position) :
    s.ready .standard .life c = s.enter c.position := by
  have hclose : s.closeBlocks .standard .life c = s := by
    rw [closeBlocks_of_blocks h.blocks]
    rcases hopen with hlabel | hreach
    · rw [if_pos hlabel]
    · rw [closeSwitches_of_reach hreach, ite_self]
  have hdue : (s.enter c.position).behaviorDue = false := h.settled
  rw [ready, hclose, startBehavior, hdue]
  rfl

/-- Where the only open switch ends and no label stands, its end is added. -/
theorem ParseState.Plain.ready_of_reach {s : ParseState} (h : s.Plain) {c : Cursor}
    {f : SwitchFrame} (hs : s.switches = [f]) (hlabel : atCaseLabel .standard .life c = false)
    (hreach : f.reach = some c.position) :
    (s.ready .standard .life c).commands =
      s.commands.push (.implicit (Catalog.standard.marker .endSwitch) []) := by
  have hclose : s.closeBlocks .standard .life c = s.closeSwitches .standard c.position := by
    rw [closeBlocks_of_blocks h.blocks, hlabel]
    rfl
  have hdue : ((s.closeSwitches .standard c.position).enter c.position).behaviorDue = false :=
    h.settled
  rw [ready, hclose, startBehavior, hdue]
  simp [enter, closeSwitches, hs, hreach]

theorem atCaseLabel_of_bytes {c : Cursor} {command : Command} {rest : List UInt8}
    (hopcode : Catalog.standard.opcode? .life command.opcode.code = some command.opcode)
    (hbytes : c.rest = command.bytes ++ rest) :
    ParseState.atCaseLabel .standard .life c = command.opcode.operation.isCaseLabel := by
  have hpeek : c.peek? = some command.opcode.code := by
    simp [Cursor.peek?, hbytes, Command.bytes]
  rw [ParseState.atCaseLabel, hpeek, Option.bind_some, hopcode]

/-- One switch is open and nothing else. -/
structure ParseState.Inside (s : ParseState) (f : SwitchFrame) : Prop where
  plain : s.Plain
  switches : s.switches = [f]

theorem ParseState.Inside.enter {s : ParseState} {f : SwitchFrame} (h : s.Inside f)
    (position : Nat) : (s.enter position).Inside f :=
  ⟨⟨h.plain.blocks, h.plain.settled⟩, h.switches⟩

theorem ParseState.Inside.add_jump {s : ParseState} {f : SwitchFrame} (h : s.Inside f)
    {c : Command} {target : Nat} (hopens : c.opcode.opensBlock = false)
    (hop : c.opcode.operation ∈ [.caseArm, .orCaseArm, .breakOff])
    (hargs : c.firstNumber? = some (target : Int)) (htarget : target < 65536) (index : Nat) :
    (s.add c index).Inside (f.extend target) := by
  have htrack : s.track c index = { s with switches := [f.extend target] } := by
    simp only [List.mem_cons, List.not_mem_nil, or_false] at hop
    unfold ParseState.track
    rcases hop with hop | hop | hop <;>
      simp [hopens, hop, hargs, h.switches, jumpOffset_natCast htarget]
  unfold ParseState.add
  rw [htrack]
  exact ⟨⟨h.plain.blocks, h.plain.settled⟩, rfl⟩

theorem ParseState.Inside.add_idle {s : ParseState} {f : SwitchFrame} (h : s.Inside f)
    {c : Command} (hopens : c.opcode.opensBlock = false)
    (hop : c.opcode.operation ∈ [.setDirMode, .setDirModeObj, .host, .defaultArm]) (index : Nat) :
    (s.add c index).Inside f := by
  have htrack : s.track c index = s := by
    simp only [List.mem_cons, List.not_mem_nil, or_false] at hop
    unfold ParseState.track
    rcases hop with hop | hop | hop | hop <;> simp [hopens, hop]
  unfold ParseState.add
  rw [htrack]
  exact ⟨⟨h.plain.blocks, h.plain.settled⟩, h.switches⟩

theorem SwitchFrame.past_predicate (f : SwitchFrame) (c : Command) :
    (f.past c).predicate = f.predicate := by
  unfold SwitchFrame.past
  induction c.jumps generalizing f with
  | nil => rfl
  | cons t rest ih => exact ih (f.extend t.toNat)

/-- A part of a switch leaves it open. -/
theorem ParseState.Inside.add {s : ParseState} {f : SwitchFrame} (h : s.Inside f)
    {layout : Layout} {predicate : Predicate} {c : Command} (hc : SwitchPart layout predicate c)
    (hjumps : ∀ t ∈ c.jumps, t < 65536) (index : Nat) :
    (s.add c index).Inside (f.past c) := by
  cases hc with
  | @label t o start target ht ho =>
      obtain ⟨hop, -, -, hcond, -⟩ := opcodeOf_label o ho
      have hsub : ∀ o ∈ labelOperations, o ∈ [.caseArm, .orCaseArm, .breakOff] := by decide
      have htarget := hjumps target List.mem_cons_self
      refine h.add_jump ?_ ?_ rfl (by omega) index
      · simp [Test.label, Opcode.opensBlock, hcond]
      · rw [Test.label, hop]
        exact hsub o ho
  | @call c start hc =>
      rw [SwitchFrame.past_call hc]
      refine h.add_idle ?_ ?_ index
      · simp [GameCommand.command, Opcode.opensBlock, hc.plain.1]
      · rcases Operation.eq_of_isHosted hc.hosted with hop | hop | hop <;>
          simp [GameCommand.command, hop]
  | leave start target =>
      have htarget := hjumps target List.mem_cons_self
      refine h.add_jump ?_ ?_ rfl (by omega) index
      · simp [breakCommand, opcodeOf_breakOff, Opcode.opensBlock, Opcode.engine]
      · simp [breakCommand, opcodeOf_breakOff, Opcode.engine]
  | fallback start =>
      obtain ⟨hop, -, hcond, -⟩ := opcodeOf_bare .defaultArm (by decide)
      refine h.add_idle ?_ ?_ index
      · simp [bareCommand, Opcode.opensBlock, hcond]
      · rw [bareCommand, hop]
        decide

theorem ParseState.blocks_ready {s : ParseState} (h : s.blocks = []) (c : Cursor) :
    (s.ready .standard .life c).blocks = [] := by
  have hclose : (s.closeBlocks .standard .life c).blocks = [] := by
    rw [closeBlocks_of_blocks h]
    split
    · exact h
    · exact h
  unfold ready startBehavior
  split
  · exact hclose
  · exact hclose

theorem ParseState.Plain.add_opening {s : ParseState} (h : s.Plain) (hs : s.switches = [])
    (k : Condition) (start index : Nat) :
    (s.add (k.opening start) index).Inside { predicate := k.predicate } := by
  have htrack : s.track (k.opening start) index =
      { s with switches := [{ predicate := k.predicate }] } := by
    unfold ParseState.track
    simp [Condition.opening, opcodeOf_switch, Opcode.engine, Opcode.conditionOnly,
      Opcode.opensBlock, hs]
  unfold ParseState.add
  rw [htrack]
  exact ⟨⟨h.blocks, h.settled⟩, rfl⟩

theorem ParseState.Inside.add_endSwitch {s : ParseState} {f : SwitchFrame} (h : s.Inside f)
    (start index : Nat) :
    (s.add (bareCommand .endSwitch start) index).Plain ∧
      (s.add (bareCommand .endSwitch start) index).switches = [] := by
  obtain ⟨hop, -, hcond, -⟩ := opcodeOf_bare .endSwitch (by decide)
  have hopens : (bareCommand .endSwitch start).opcode.opensBlock = false := by
    simp [bareCommand, Opcode.opensBlock, hcond]
  have hop : (bareCommand .endSwitch start).opcode.operation = .endSwitch := hop
  have htrack : s.track (bareCommand .endSwitch start) index = { s with switches := [] } := by
    unfold ParseState.track
    simp [hopens, hop, h.switches]
  unfold ParseState.add
  rw [htrack]
  exact ⟨⟨h.plain.blocks, h.plain.settled⟩, rfl⟩

/-- **Reading inside a switch** gives the commands as they are, and nothing is added. -/
theorem ParseRun.inside {layout : Layout} {commands : List Command} {c : Cursor}
    {s s' : ParseState} {stop : Option (Nat × ParseError)} {f g : SwitchFrame} {rest : List UInt8}
    (h : ParseRun .standard .life c s s' stop) (hs : s.Inside f) (hstays : f.Stays commands g)
    (hparts : ∀ d ∈ commands, SwitchPart layout f.predicate d ∧ ∀ t ∈ d.jumps, t < 65536)
    (hplaced : PlacedFrom c.position commands)
    (hbytes : c.rest = commands.flatMap Command.bytes ++ rest) :
    ∃ after t, after.rest = rest ∧
      after.position = c.position + (commands.flatMap Command.bytes).length ∧ t.Inside g ∧
      t.commands.toList = s.commands.toList ++ commands ∧
      ParseRun .standard .life after t s' stop := by
  induction hstays generalizing c s with
  | nil f => exact ⟨c, s, hbytes, rfl, hs, (List.append_nil _).symm, h⟩
  | @cons f g command commands hopen _ ih =>
      rw [List.forall_mem_cons] at hparts
      obtain ⟨⟨hpart, hjumps⟩, hparts⟩ := hparts
      rw [List.flatMap_cons, List.append_assoc] at hbytes
      have hconf := hpart.conforms hjumps
      have hready : s.ready .standard .life c = s.enter c.position := by
        refine hs.plain.ready_of_open ?_
        rw [atCaseLabel_of_bytes hconf.opcode hbytes, hs.switches]
        refine hopen.imp_right fun hreach => ?_
        simpa using hreach c.position hplaced.head
      have hentered : (s.ready .standard .life c).Inside f := by
        rw [hready]
        exact hs.enter c.position
      have henclosing : (s.ready .standard .life c).enclosing = some f.predicate := by
        rw [ParseState.enclosing, hentered.switches]
        rfl
      rw [← henclosing] at hconf
      obtain ⟨after, hrest, hposition, hrun⟩ := h.next_of_conforms hconf hplaced.head hbytes
      have hplaced' := hplaced.tail
      rw [← hposition] at hplaced'
      rw [← f.past_predicate command] at hparts
      obtain ⟨last, t, hrest', hposition', ht, hcommands, hrun'⟩ :=
        ih hrun (hentered.add hpart hjumps _) hparts hplaced' hrest
      refine ⟨last, t, hrest', ?_, ht, ?_, hrun'⟩
      · rw [hposition', hposition, List.flatMap_cons, List.length_append, Nat.add_assoc]
      · rw [hcommands, ParseState.add_commands, Array.toList_push, hready]
        simp [ParseState.enter]

theorem ParseRun.ends {c : Cursor} {s s' : ParseState} {stop : Option (Nat × ParseError)}
    (h : ParseRun .standard .life c s s' stop) (hbytes : c.rest = (endCommand c.position).bytes) :
    stop = none ∧ s'.commands.toList =
      (s.ready .standard .life c).commands.toList ++ [endCommand c.position] := by
  rw [← List.append_nil (endCommand c.position).bytes] at hbytes
  obtain ⟨after, hrest, -, hrun⟩ := h.next_of_conforms (conforms_endCommand _ _) rfl hbytes
  obtain ⟨rfl, rfl⟩ := hrun.eq_of_atEnd (by simp [Cursor.atEnd, hrest])
  exact ⟨rfl, by rw [ParseState.add_commands, Array.toList_push]⟩

namespace Switch

/-- The end of a switch that is added on reading: where the switch has none of its own, and an arm
that leads to it. -/
def added (s : Switch) : List Command :=
  if s.closed || s.arms.isEmpty then [] else [.implicit (Catalog.standard.marker .endSwitch) []]

theorem added_of_inside {s : Switch} (h : s.inside = []) : s.added = [] := by
  unfold Switch.added
  cases harms : s.arms with
  | nil => simp
  | cons a rest =>
      simp [Switch.inside, branchCommands, harms, armsCommands, Arm.commands] at h

/-- What is read from the script of a switch. -/
def read (s : Switch) : List Command :=
  behaviorCommand :: s.condition.opening 0 :: (s.inside ++ (s.added ++ s.tail))

/-- Reading what is behind a switch. -/
theorem reads_tail {s : Switch} {c : Cursor} {t t' : ParseState}
    {stop : Option (Nat × ParseError)} {f : SwitchFrame}
    (h : ParseRun .standard .life c t t' stop) (ht : t.Inside f)
    (hreach : f.reach = if s.arms.isEmpty then none else some s.finish)
    (hposition : c.position = s.finish) (hbytes : c.rest = s.tail.flatMap Command.bytes) :
    stop = none ∧ t'.commands.toList = t.commands.toList ++ (s.added ++ s.tail) := by
  unfold Switch.tail Switch.added at *
  cases hclosed : s.closed with
  | true =>
      -- The end of the switch is a label of its own, so nothing is added in front of it.
      simp only [hclosed, if_true, Bool.true_or, List.flatMap_cons, List.flatMap_nil,
        List.append_nil, List.nil_append] at hbytes ⊢
      have hconf := conforms_bareCommand (show .endSwitch ∈ bareOperations by decide) s.finish
      have hready : t.ready .standard .life c = t.enter c.position := by
        refine ht.plain.ready_of_open (.inl ?_)
        rw [atCaseLabel_of_bytes (hconf none).opcode hbytes, bareCommand,
          (opcodeOf_bare .endSwitch (by decide)).1]
        rfl
      obtain ⟨after, hrest, hposition', hrun⟩ := h.next_of_conforms (hconf _)
        (by rw [hposition]; rfl) hbytes
      rw [length_bytes_bareCommand, hposition] at hposition'
      rw [← hposition'] at hrest
      obtain ⟨hstop, hcommands⟩ := hrun.ends hrest
      obtain ⟨hplain, hnone⟩ := (ht.enter c.position).add_endSwitch s.finish
        (t.entry .standard .life c)
      refine ⟨hstop, ?_⟩
      rw [hcommands, hready, hplain.ready_of_open (.inr (by simp [hnone])), hposition']
      simp [ParseState.enter]
  | false =>
      simp only [hclosed, Bool.false_eq_true, if_false, Bool.false_or, List.flatMap_cons,
        List.flatMap_nil, List.append_nil] at hbytes ⊢
      rw [← hposition] at hbytes ⊢
      obtain ⟨hstop, hcommands⟩ := h.ends hbytes
      refine ⟨hstop, ?_⟩
      rw [hcommands]
      cases harms : s.arms.isEmpty with
      | true =>
          have hready : t.ready .standard .life c = t.enter c.position := by
            refine ht.plain.ready_of_open (.inr ?_)
            simp [ht.switches, hreach, harms]
          rw [hready]
          simp [ParseState.enter]
      | false =>
          have hlabel : ParseState.atCaseLabel .standard .life c = false := by
            rw [← List.append_nil (endCommand c.position).bytes] at hbytes
            rw [atCaseLabel_of_bytes (conforms_endCommand c.position none).opcode hbytes,
              endCommand, opcodeOf_finish]
            rfl
          have hready := ht.plain.ready_of_reach ht.switches hlabel
            (by rw [hreach, harms, hposition]; rfl)
          rw [hready]
          simp

/-- **Parsing the script of a switch** gives its commands behind the start of a behavior, with the
end of the switch where it needs one, and reports nothing. -/
theorem parseScript_read {layout : Layout} {s : Switch} (hs : s.InScene layout)
    (hjumps : ∀ c ∈ s.inside, ∀ t ∈ c.jumps, t < 65536) (scene actor : Nat) :
    (parseScript .standard scene (.life actor) s.script).1.commands.toList = s.read ∧
      (parseScript .standard scene (.life actor) s.script).2 = [] := by
  obtain ⟨t', stop, hrun, he⟩ := parseScript_eq .standard scene (.life actor) s.script
  change ParseRun .standard .life (.start s.script) (.start .life) t' stop at hrun
  have hbytes : (Cursor.start s.script).rest = (s.condition.opening 0).bytes ++
      (s.inside ++ s.tail).flatMap Command.bytes := rfl
  have hcode : (Cursor.start s.script).peek?.getD 0 ≠ 0 := by
    simp [Cursor.peek?, hbytes, Command.bytes, Condition.opening, opcodeOf_switch, Opcode.engine,
      Opcode.conditionOnly]
  obtain ⟨hswitches, hcommands, hdue⟩ := ready_start (Cursor.start s.script)
  rw [if_neg hcode] at hcommands
  have hplain : ((ParseState.start .life).ready .standard .life (.start s.script)).Plain :=
    ⟨ParseState.blocks_ready rfl _, by rw [hdue, beq_eq_false_iff_ne.mpr hcode]⟩
  obtain ⟨after, hrest, hposition, hrun⟩ := hrun.next_of_conforms
    (conforms_opening hs.condition 0 _) rfl hbytes
  have hinside := hplain.add_opening hswitches s.condition 0
    ((ParseState.start .life).entry .standard .life (.start s.script))
  obtain ⟨g, hstays, hreach⟩ := hs.stays
  rw [length_bytes_opening] at hposition
  have hstart : after.position = s.armsStart := by rw [hposition]; exact Nat.zero_add _
  rw [List.flatMap_append] at hrest
  have hplaced : PlacedFrom after.position s.inside := by
    rw [hstart]
    exact placed_branchCommands _ _ _ _
  obtain ⟨last, t, hrest', hposition', ht, hread, hrun⟩ := hrun.inside hinside hstays
    (fun d hd => ⟨hs.part_inside d hd, hjumps d hd⟩) hplaced hrest
  rw [hstart, Switch.inside, length_bytes_branchCommands] at hposition'
  obtain ⟨rfl, hall⟩ := reads_tail hrun ht hreach hposition' hrest'
  rw [he]
  refine ⟨?_, rfl⟩
  change t'.commands.toList = s.read
  rw [hall, hread, ParseState.add_commands, Array.toList_push, hcommands]
  simp [Switch.read]

end Switch

/-! ### Commands in a row -/

/-- A program lists commands from an index on: they are its instructions there, bound, and their
offsets lead to them. -/
def Program.Lists (p : Program) (k : Nat) (commands : List Command) : Prop :=
  ∀ j c, commands[j]? = some c →
    (∃ i, p.instructions[k + j]? = some i ∧ c.Bound p.indexAt i) ∧
      ∀ o, c.offset = some o → p.indexAt o = k + j

namespace Program.Lists

variable {p : Program} {k : Nat} {u v : List Command} {c : Command}

theorem left (h : p.Lists k (u ++ v)) : p.Lists k u := by
  intro j c hc
  have hlt := (List.getElem?_eq_some_iff.mp hc).1
  exact h j c (by rw [List.getElem?_append_left hlt, hc])

theorem right (h : p.Lists k (u ++ v)) : p.Lists (k + u.length) v := by
  intro j c hc
  have hv := h (u.length + j) c (by
    rw [List.getElem?_append_right (by omega), Nat.add_sub_cancel_left, hc])
  rwa [← Nat.add_assoc] at hv

theorem head (h : p.Lists k (c :: v)) : ∃ i, p.instructions[k]? = some i ∧ c.Bound p.indexAt i :=
  (h 0 c rfl).1

theorem indexAt_head (h : p.Lists k (c :: v)) {o : Nat} (ho : c.offset = some o) :
    p.indexAt o = k :=
  (h 0 c rfl).2 o ho

theorem tail (h : p.Lists k (c :: v)) : p.Lists (k + 1) v :=
  right (u := [c]) h

theorem indexAt_start (h : p.Lists k u) {start : Nat} (hplaced : PlacedFrom start u)
    (hne : u ≠ []) : p.indexAt start = k := by
  obtain ⟨c, rest, rfl⟩ := List.exists_cons_of_ne_nil hne
  exact h.indexAt_head hplaced.head

end Program.Lists

section
variable {source : SceneSource} {id : ScriptId} {bytes : List UInt8}

theorem SceneSource.parsed?_of_bytes (hbytes : source.bytes? id = some bytes) :
    source.parsed? .standard id = some (parseScript .standard source.index id bytes).1 := by
  rw [SceneSource.parsed?_eq, hbytes]
  rfl

/-- The offset of a command leads to its instruction. -/
theorem SceneSource.indexAt_of_getElem? (hbytes : source.bytes? id = some bytes) {k o : Nat}
    {c : Command} (hc : (parseScript .standard source.index id bytes).1.commands[k]? = some c)
    (ho : c.offset = some o) :
    (source.program .standard (parseScript .standard source.index id bytes).1).indexAt o = k := by
  have hfound := source.parsed?_of_bytes hbytes
  have hlist := hc
  rw [← Array.getElem?_toList] at hlist
  obtain ⟨hlt, rfl⟩ := List.getElem?_eq_some_iff.mp hlist
  have hsplit := (List.take_append_drop k
    (parseScript .standard source.index id bytes).1.commands.toList).symm
  rw [List.drop_eq_getElem_cons hlt] at hsplit
  rw [source.indexAt_program hfound hsplit ho, List.length_take, Nat.min_eq_left (by omega)]
  intro d hd he
  obtain ⟨j, hj, rfl⟩ := List.mem_take_iff_getElem.mp hd
  have hjk : j < k := by omega
  have hget : (parseScript .standard source.index id bytes).1.commands[j]? =
      some (parseScript .standard source.index id bytes).1.commands.toList[j] := by
    rw [← Array.getElem?_toList, List.getElem?_eq_getElem (by omega)]
  have := lt_of_parseScript_offset hjk hget hc he ho
  omega

/-- A script whose commands are resolved is compiled to them in a row. -/
theorem SceneSource.lists_program (hbytes : source.bytes? id = some bytes)
    (hresolved : ∀ c ∈ (parseScript .standard source.index id bytes).1.commands,
      c.Resolved source.layout (source.parsed? .standard id)
        (source.program .standard (parseScript .standard source.index id bytes).1).indexAt) :
    (source.program .standard (parseScript .standard source.index id bytes).1).Lists 0
      (parseScript .standard source.index id bytes).1.commands.toList := by
  have hfound := source.parsed?_of_bytes hbytes
  intro j c hc
  rw [Array.getElem?_toList] at hc
  rw [Nat.zero_add]
  have hi := source.getElem?_instructions .standard hfound j
  rw [hc, Option.map_some] at hi
  exact ⟨⟨_, hi, (hresolved c (Array.mem_of_getElem? hc)).bound⟩,
    fun o ho => source.indexAt_of_getElem? hbytes hc ho⟩

/-- The offset of a command leads to it, unless the start of a behavior stands before it. -/
theorem SceneSource.lookup_of_getElem? (hbytes : source.bytes? id = some bytes) {k o : Nat}
    {c : Command} (hc : (parseScript .standard source.index id bytes).1.commands[k + 1]? = some c)
    (ho : c.offset = some o)
    (hbefore : ∀ n, (parseScript .standard source.index id bytes).1.commands[k]? ≠
      some (.implicit (Catalog.standard.marker .behaviour) [⟨.label, .number n⟩])) :
    Link.lookup (source.parsed? .standard id) o = some ((source.program .standard
      (parseScript .standard source.index id bytes).1).indexAt o) := by
  rw [source.indexAt_of_getElem? hbytes hc ho, Link.lookup, if_pos (Int.natCast_nonneg o),
    source.parsed?_of_bytes hbytes, Option.bind_some, Int.toNat_natCast]
  rcases parseScript_indexOf? hc ho with hi | ⟨entry, n, hentry, -, hm⟩
  · exact hi
  · obtain rfl : k = entry := by omega
    exact absurd hm (hbefore n)

end

/-! ### A switch, compiled -/

/-- A command whose only argument is a jump that leads to a command is resolved. -/
theorem resolved_of_jump {layout : Layout} {own : Option ParsedScript} {index : Nat → Nat}
    {c : Command} {target : Nat} (hplain : Link.crossReference? c.opcode.operation = none)
    (hargs : c.args = [⟨.jump, .number target⟩]) (hcondition : c.condition = none)
    (hlookup : Link.lookup own target = some (index target)) : c.Resolved layout own index := by
  refine ⟨hplain, ?_, ?_, by simp [hcondition]⟩
  · intro a ha _
    rw [hargs, List.mem_singleton] at ha
    exact ⟨target, by rw [ha], hlookup⟩
  · intro a ha
    rw [hargs, List.mem_singleton] at ha
    rw [ha]
    trivial

theorem resolved_bareCommand {layout : Layout} {own : Option ParsedScript} {index : Nat → Nat}
    {o : Operation} (ho : o ∈ bareOperations) (start : Nat) :
    (bareCommand o start).Resolved layout own index := by
  have hplain : ∀ o ∈ bareOperations, (Link.crossReference? o).isNone = true := by decide
  refine resolved_of_args_eq_nil ?_ rfl rfl
  rw [bareCommand, (opcodeOf_bare o ho).1]
  exact Option.isNone_iff_eq_none.mp (hplain o ho)

theorem SwitchPart.resolved {layout : Layout} {predicate : Predicate} {own : Option ParsedScript}
    {index : Nat → Nat} {c : Command} (h : SwitchPart layout predicate c)
    (hjumps : ∀ t ∈ c.jumps, ∃ n : Nat, t = n ∧ Link.lookup own n = some (index n)) :
    c.Resolved layout own index := by
  have hjump : ∀ target : Nat, c.jumps = [(target : Int)] →
      Link.lookup own target = some (index target) := by
    intro target htarget
    obtain ⟨n, hn, hlookup⟩ := hjumps target (by simp [htarget])
    rwa [← Int.ofNat.inj hn] at hlookup
  cases h with
  | @label t o start target ht ho =>
      have hplain : ∀ o ∈ labelOperations, (Link.crossReference? o).isNone = true := by decide
      refine resolved_of_jump ?_ rfl rfl (hjump target rfl)
      rw [Test.label, (opcodeOf_label o ho).1]
      exact Option.isNone_iff_eq_none.mp (hplain o ho)
  | call start hc => exact (Laid.call start hc).resolved hjumps
  | leave start target =>
      refine resolved_of_jump ?_ rfl rfl (hjump target rfl)
      rw [breakCommand, opcodeOf_breakOff]
      rfl
  | fallback start => exact resolved_bareCommand (by decide) start

theorem SwitchPart.offset_ne {layout : Layout} {predicate : Predicate} {c : Command}
    (h : SwitchPart layout predicate c) : c.offset ≠ none := by
  cases h <;> exact Option.some_ne_none _

namespace Switch

variable {layout : Layout} {s : Switch}

/-- Behind a switch there are commands without arguments only. -/
theorem mem_tail {c : Command} (hc : c ∈ s.tail) :
    ∃ o ∈ bareOperations, ∃ start, c = bareCommand o start := by
  have hfinish : .finish ∈ bareOperations := by decide
  unfold Switch.tail at hc
  split at hc
  · rcases List.mem_cons.mp hc with rfl | hc
    · exact ⟨.endSwitch, by decide, _, rfl⟩
    · exact ⟨.finish, hfinish, _, List.mem_singleton.mp hc⟩
  · exact ⟨.finish, hfinish, _, List.mem_singleton.mp hc⟩

/-- A switch is read as one behavior: no other one starts in it. -/
theorem InScene.unmarked (hs : s.InScene layout) {c : Command}
    (hc : c ∈ s.condition.opening 0 :: (s.inside ++ (s.added ++ s.tail))) (n : Int) :
    c ≠ .implicit (Catalog.standard.marker .behaviour) [⟨.label, .number n⟩] := by
  have hplaced : c.offset ≠ none → c ≠ .implicit (Catalog.standard.marker .behaviour)
      [⟨.label, .number n⟩] := by
    rintro hne rfl
    exact hne rfl
  rcases List.mem_cons.mp hc with rfl | hc
  · exact hplaced (Option.some_ne_none 0)
  rcases List.mem_append.mp hc with hc | hc
  · exact hplaced (hs.part_inside c hc).offset_ne
  rcases List.mem_append.mp hc with hc | hc
  · unfold Switch.added at hc
    split at hc
    · cases hc
    · rw [List.mem_singleton.mp hc]
      intro he
      have hargs : ([] : List Argument) = [⟨.label, .number n⟩] := congrArg Command.args he
      cases hargs
  · obtain ⟨o, -, start, rfl⟩ := mem_tail hc
    exact hplaced (Option.some_ne_none start)

variable {source : SceneSource} {a : Nat}

/-- The offset of every command behind the first leads to the command. -/
theorem InScene.lookup (hs : s.InScene source.layout)
    (hbytes : source.bytes? (.life a) = some s.script)
    (hjumps : ∀ c ∈ s.inside, ∀ t ∈ c.jumps, t < 65536) {d : Command}
    (hd : d ∈ s.inside ++ s.tail) {n : Nat} (hn : d.offset = some n) :
    Link.lookup (source.parsed? .standard (.life a)) n = some ((source.program .standard
      (parseScript .standard source.index (.life a) s.script).1).indexAt n) := by
  obtain ⟨hread, -⟩ := s.parseScript_read hs hjumps source.index a
  have hd' : d ∈ s.inside ++ (s.added ++ s.tail) := by
    simp only [List.mem_append] at hd ⊢
    exact hd.imp_right .inr
  obtain ⟨k, hk⟩ := List.mem_iff_getElem?.mp hd'
  refine source.lookup_of_getElem? (k := k + 1) hbytes ?_ hn ?_
  · rw [← Array.getElem?_toList, hread]
    exact hk
  · intro m hm
    rw [← Array.getElem?_toList, hread, Switch.read, List.getElem?_cons_succ] at hm
    exact hs.unmarked (List.mem_of_getElem? hm) m rfl

theorem InScene.resolved (hs : s.InScene source.layout)
    (hbytes : source.bytes? (.life a) = some s.script)
    (hjumps : ∀ c ∈ s.inside, ∀ t ∈ c.jumps, t < 65536) {c : Command}
    (hc : c ∈ (parseScript .standard source.index (.life a) s.script).1.commands) :
    c.Resolved source.layout (source.parsed? .standard (.life a)) (source.program .standard
      (parseScript .standard source.index (.life a) s.script).1).indexAt := by
  obtain ⟨hread, -⟩ := s.parseScript_read hs hjumps source.index a
  rw [← Array.mem_toList_iff, hread] at hc
  rcases List.mem_cons.mp hc with rfl | hc
  · exact resolved_behaviorCommand _ _ _
  rcases List.mem_cons.mp hc with rfl | hc
  · refine ⟨?_, by simp [Condition.opening], by simp [Condition.opening], ?_⟩
    · rw [Condition.opening, opcodeOf_switch]
      rfl
    · intro k hk
      obtain rfl := Option.some.inj hk
      exact fun a ha => ⟨hs.condition.role_ne a ha, hs.param a ha⟩
  rcases List.mem_append.mp hc with hc | hc
  · refine (hs.part_inside c hc).resolved ?_
    intro t ht
    obtain ⟨n, rfl, d, hd, hn⟩ := hs.offset_of_jump hc ht
    exact ⟨n, rfl, hs.lookup hbytes hjumps hd hn⟩
  rcases List.mem_append.mp hc with hc | hc
  · unfold Switch.added at hc
    split at hc
    · cases hc
    · rw [List.mem_singleton.mp hc]
      refine resolved_of_args_eq_nil ?_ rfl rfl
      rw [Command.implicit, Catalog.standard.marker_operation rfl]
      rfl
  · obtain ⟨o, ho, start, rfl⟩ := mem_tail hc
    exact resolved_bareCommand ho start

/-- **Nothing is reported** about the script of a switch. -/
theorem InScene.script_ne_of_mem_findings (hs : s.InScene source.layout)
    (hbytes : source.bytes? (.life a) = some s.script)
    (hjumps : ∀ c ∈ s.inside, ∀ t ∈ c.jumps, t < 65536) {d : Diagnostic}
    (hd : d ∈ source.findings .standard) : d.location.script ≠ .life a :=
  source.script_ne_of_resolved hbytes (s.parseScript_read hs hjumps source.index a).2
    (fun _ hc => hs.resolved hbytes hjumps hc) hd

/-- A switch is compiled to what was read of it, in a row. -/
theorem InScene.lists (hs : s.InScene source.layout)
    (hbytes : source.bytes? (.life a) = some s.script)
    (hjumps : ∀ c ∈ s.inside, ∀ t ∈ c.jumps, t < 65536) :
    (source.program .standard (parseScript .standard source.index (.life a) s.script).1).Lists 0
      s.read := by
  rw [← (s.parseScript_read hs hjumps source.index a).1]
  exact source.lists_program hbytes fun _ hc => hs.resolved hbytes hjumps hc

end Switch

end SceneScript
