import SceneScript.Proofs.References
import SceneScript.Proofs.Prefixes

/-! # The parts of scripts

A life script is divided into behaviors, a move script into tracks. A behavior starts with a BEHAVIOUR
that the parser adds, a track with its TRACK (`Command.starts`).

* `LifeOrder due next commands`: the order in which commands stand in a life script. Reading keeps it,
  whatever the bytes are: what is due and what comes next are fields of the parser (`ParseRun.lives`).
* `LifeOrder.numbers`, `LifeOrder.lead`, `LifeOrder.between`: behaviors are numbered one after the
  other, only ENDs stand before the first one, and each one ends before the next one starts.
* `ParseRun.moves`: in a move script nothing is added.
* `part_eq`: an instruction belongs to the part that was started last.
* `parseScript_parts`: all of it together, for scripts of the standard catalog. -/

namespace SceneScript

/-! ### Commands that start a part -/

/-- Whether a command starts a part of a script of a kind. -/
def Command.starts : ScriptKind → Command → Bool
  | .life, c => c.isMarker .behaviour
  | .move, c => c.opcode.operation == .track

/-- The number of the part that a command starts. -/
def Command.part? (kind : ScriptKind) (c : Command) : Option Int :=
  if c.starts kind then c.firstNumber? else none

def behaviorStart (n : Nat) : Command :=
  .implicit (Catalog.standard.marker .behaviour) [⟨.label, .number n⟩]

theorem behaviorStart_starts (n : Nat) : (behaviorStart n).starts .life = true :=
  Command.isMarker_implicit .standard rfl _ .behaviour

/-- The map has the parts that commands start, at the indices where they start, and each of these
commands has a number for its part. -/
structure IndexMap.Notes (kind : ScriptKind) (commands : Array Command) (m : IndexMap Int) : Prop where
  entries : ∀ k : Nat, m[k]? = commands[k]?.bind (Command.part? kind)
  numbered : ∀ c ∈ commands, c.starts kind = true → ∃ n, c.firstNumber? = some n

namespace IndexMap

variable {kind : ScriptKind} {commands : Array Command} {m : IndexMap Int} {c : Command}

theorem notes_empty (kind : ScriptKind) : Notes kind #[] {} :=
  ⟨fun k => by simp, by simp⟩

theorem Notes.push (h : m.Notes kind commands) (hc : c.starts kind = false) :
    m.Notes kind (commands.push c) := by
  refine ⟨?_, ?_⟩
  · intro k
    rw [h.entries k, Array.getElem?_push]
    split
    · next hk => simp [hk, Command.part?, hc]
    · rfl
  · rw [Array.forall_mem_push]
    exact ⟨by simp [hc], h.numbered⟩

theorem Notes.insert (h : m.Notes kind commands) {n : Int} (hc : c.starts kind = true)
    (hn : c.firstNumber? = some n) :
    Notes kind (commands.push c) (m.insert commands.size n) := by
  refine ⟨?_, ?_⟩
  · intro k
    rw [Std.TreeMap.getElem?_insert, Array.getElem?_push, h.entries k]
    simp only [compare_eq_iff_eq, eq_comm (a := commands.size)]
    split
    · simp [Command.part?, hc, hn]
    · rfl
  · rw [Array.forall_mem_push]
    exact ⟨fun _ => ⟨n, hn⟩, h.numbered⟩

/-- The keys of the map are the indices of the commands that start a part. -/
theorem Notes.getElem?_iff (h : m.Notes kind commands) (k : Nat) (n : Int) :
    m[k]? = some n ↔
      ∃ c, commands[k]? = some c ∧ c.starts kind = true ∧ c.firstNumber? = some n := by
  simp [h.entries k, Command.part?, Option.bind_eq_some_iff]

end IndexMap

/-! ### Life scripts -/

/-- The end of a block, added. -/
def Command.IsBlockEnd (c : Command) : Prop :=
  c.isMarker .endIf = true ∨ c.isMarker .endSwitch = true

/-- What may stand behind the commands of a life script. Before it, `due` says that the next command
starts a behavior unless it is an END, and `next` is the number of that behavior. Blocks end only
behind the start of a behavior. -/
inductive LifeStep : (due : Bool) → (next : Nat) → Command → (due' : Bool) → (next' : Nat) → Prop
  | pad {next : Nat} {c : Command} : c.opcode.operation = .finish → LifeStep true next c true next
  | close {due : Bool} {next : Nat} {c : Command} : c.IsBlockEnd →
      LifeStep due (next + 1) c due (next + 1)
  | begin {next : Nat} : LifeStep true next (behaviorStart next) false (next + 1)
  | inside {next o : Nat} {c : Command} : c.offset = some o →
      c.opcode.operation ≠ .endBehaviour → LifeStep false next c false next
  | finish {next : Nat} {c : Command} : c.opcode.operation = .endBehaviour →
      LifeStep false next c true next

/-- The order in which commands stand in a life script, with what comes next. -/
inductive LifeOrder : (due : Bool) → (next : Nat) → List Command → Prop
  | start : LifeOrder true 0 []
  | step {due due' : Bool} {next next' : Nat} {cs : List Command} {c : Command} :
      LifeOrder due next cs → LifeStep due next c due' next' → LifeOrder due' next' (cs ++ [c])

theorem Command.starts_life_eq_false {c : Command} (h : c.opcode.operation ≠ .behaviour) :
    c.starts .life = false := by
  rw [← Bool.not_eq_true]
  exact fun hc => h (Command.isMarker_iff.mp hc).2

theorem Command.IsBlockEnd.operation {c : Command} (h : c.IsBlockEnd) :
    c.opcode.operation = .endIf ∨ c.opcode.operation = .endSwitch :=
  h.imp (fun h => (Command.isMarker_iff.mp h).2) fun h => (Command.isMarker_iff.mp h).2

theorem Command.IsBlockEnd.starts {c : Command} (h : c.IsBlockEnd) : c.starts .life = false := by
  apply Command.starts_life_eq_false
  rcases h.operation with hop | hop <;> rw [hop] <;> decide

/-- A behavior starts when it is due, and with the number that comes next. -/
theorem LifeStep.starts_or {due due' : Bool} {next next' : Nat} {c : Command}
    (h : LifeStep due next c due' next') :
    (due = true ∧ due' = false ∧ next' = next + 1 ∧ c = behaviorStart next) ∨
      (next' = next ∧ c.starts .life = false) := by
  cases h with
  | begin => exact .inl ⟨rfl, rfl, rfl, rfl⟩
  | pad hop => exact .inr ⟨rfl, Command.starts_life_eq_false (by rw [hop]; decide)⟩
  | close hend => exact .inr ⟨rfl, hend.starts⟩
  | inside ho => exact .inr ⟨rfl, Command.not_isMarker_of_offset ho .behaviour⟩
  | finish hop => exact .inr ⟨rfl, Command.starts_life_eq_false (by rw [hop]; decide)⟩

/-- The commands of a behavior that has ended: its one END_BEHAVIOUR, and behind it nothing but ENDs
and the ends of blocks. -/
def EndsOnce (commands : List Command) : Prop :=
  ∃ body e tail, commands = body ++ e :: tail ∧ (∀ c ∈ body, c.opcode.operation ≠ .endBehaviour) ∧
    e.opcode.operation = .endBehaviour ∧
    ∀ c ∈ tail, c.opcode.operation = .finish ∨ c.IsBlockEnd

theorem EndsOnce.concat {commands : List Command} (h : EndsOnce commands) {c : Command}
    (hc : c.opcode.operation = .finish ∨ c.IsBlockEnd) : EndsOnce (commands ++ [c]) := by
  obtain ⟨body, e, tail, rfl, hbody, he, htail⟩ := h
  refine ⟨body, e, tail ++ [c], by simp, hbody, he, ?_⟩
  rw [List.forall_mem_append, List.forall_mem_singleton]
  exact ⟨htail, hc⟩

namespace LifeOrder

variable {due : Bool} {next : Nat} {cs : List Command}

theorem numbers (h : LifeOrder due next cs) :
    (cs.filter (Command.starts .life)).map Command.firstNumber? =
      (List.range next).map fun n : Nat => some (n : Int) := by
  induction h with
  | start => rfl
  | step _ hstep ih =>
      rw [List.filter_append, List.map_append, ih]
      rcases hstep.starts_or with ⟨-, -, rfl, rfl⟩ | ⟨rfl, hc⟩
      · rw [List.range_succ, List.map_append, List.filter_cons_of_pos (behaviorStart_starts _)]
        rfl
      · rw [List.filter_cons_of_neg (by simp [hc])]
        exact List.append_nil _

theorem unbegun (h : LifeOrder due next cs) (hnone : ∀ c ∈ cs, c.starts .life = false) :
    due = true ∧ next = 0 := by
  induction h with
  | start => exact ⟨rfl, rfl⟩
  | step _ hstep ih =>
      rw [List.forall_mem_append, List.forall_mem_singleton] at hnone
      obtain ⟨rfl, rfl⟩ := ih hnone.1
      cases hstep with
      | pad => exact ⟨rfl, rfl⟩
      | begin => exact absurd (hnone.2.symm.trans (behaviorStart_starts 0)) (by decide)

theorem next_pos (h : LifeOrder due next cs) (hdue : due = false) : 0 < next := by
  induction h with
  | start => cases hdue
  | step _ hstep ih =>
      cases hstep with
      | pad | finish => cases hdue
      | close | begin => exact Nat.succ_pos _
      | inside => exact ih hdue

/-- Only ENDs stand in front of the first behavior. -/
theorem lead (h : LifeOrder due next cs) {before after : List Command} {c : Command}
    (hsplit : cs = before ++ c :: after) (hnone : ∀ m ∈ before, m.starts .life = false) :
    c.starts .life = true ∨ c.opcode.operation = .finish := by
  induction h generalizing after with
  | start => simp at hsplit
  | step h hstep ih =>
      rcases split_concat hsplit with ⟨rfl, rfl, -⟩ | ⟨w, -, hw⟩
      · obtain ⟨rfl, rfl⟩ := h.unbegun hnone
        cases hstep with
        | pad hop => exact .inr hop
        | begin => exact .inl (behaviorStart_starts 0)
      · exact ih hw

/-- Behind the last start of a behavior stand the commands of one that goes on, or of one that has
ended if the next one is due. -/
theorem last (h : LifeOrder due next cs) {before rest : List Command} {m : Command}
    (hsplit : cs = before ++ m :: rest) (hm : m.starts .life = true)
    (hrest : ∀ c ∈ rest, c.starts .life = false) :
    (due = true → EndsOnce rest) ∧
      (due = false → ∀ c ∈ rest, c.opcode.operation ≠ .endBehaviour) := by
  induction h generalizing rest with
  | start => simp at hsplit
  | @step due due' next next' cs c h hstep ih =>
      rcases split_concat hsplit with ⟨-, rfl, rfl⟩ | ⟨w, rfl, hw⟩
      · rcases hstep.starts_or with ⟨-, rfl, -, -⟩ | ⟨-, hc⟩
        · exact ⟨by simp, by simp⟩
        · exact absurd (hc.symm.trans hm) (by decide)
      · -- The start is further back: what stands behind it has grown by one command.
        rw [List.forall_mem_append, List.forall_mem_singleton] at hrest
        obtain ⟨hended, hgoes⟩ := ih hw hrest.1
        have hextend : due = false → c.opcode.operation ≠ .endBehaviour →
            ∀ d ∈ w ++ [c], d.opcode.operation ≠ .endBehaviour := by
          intro hdue hop
          rw [List.forall_mem_append, List.forall_mem_singleton]
          exact ⟨hgoes hdue, hop⟩
        cases hstep with
        | pad hop => exact ⟨fun hdue => (hended hdue).concat (.inl hop), by simp⟩
        | close hend =>
            refine ⟨fun hdue => (hended hdue).concat (.inr hend), fun hdue => hextend hdue ?_⟩
            rcases hend.operation with hop | hop <;> rw [hop] <;> decide
        | begin => exact absurd (hrest.2.symm.trans (behaviorStart_starts next)) (by decide)
        | inside _ hop => exact ⟨by simp, fun hdue => hextend hdue hop⟩
        | finish hop =>
            exact ⟨fun _ => ⟨w, c, [], rfl, hgoes rfl, hop, by simp⟩, by simp⟩

/-- A behavior ends before the next one starts. -/
theorem between (h : LifeOrder due next cs) {before mid after : List Command} {m m' : Command}
    (hsplit : cs = before ++ m :: (mid ++ m' :: after)) (hm : m.starts .life = true)
    (hm' : m'.starts .life = true) (hmid : ∀ c ∈ mid, c.starts .life = false) : EndsOnce mid := by
  induction h generalizing after with
  | start => simp at hsplit
  | step h hstep ih =>
      rw [← List.cons_append, ← List.append_assoc] at hsplit
      rcases split_concat hsplit with ⟨rfl, rfl, -⟩ | ⟨w, -, hw⟩
      · rcases hstep.starts_or with ⟨hdue, -⟩ | ⟨-, hc⟩
        · exact (h.last rfl hm hmid).1 hdue
        · exact absurd (hc.symm.trans hm') (by decide)
      · exact ih (hw.trans (List.append_assoc ..))

end LifeOrder

/-! ### Reading a life script -/

/-- What reading a life script keeps: the order of the commands, no block that is open before the first
behavior, and behaviors noted where they start. -/
structure ParseState.Lives (s : ParseState) : Prop where
  order : LifeOrder s.behaviorDue s.nextBehavior s.commands.toList
  closed : s.nextBehavior = 0 → s.blocks = [] ∧ s.switches = []
  noted : s.behaviors.Notes .life s.commands

/-- Commands of life scripts that open a block are no ENDs and end no behavior. -/
theorem standardLife_opensBlock :
    (Catalog.standardLife.toList.all fun d =>
      !d.opensBlock || d.operation ∉ [.finish, .endBehaviour]) = true := by
  decide +kernel

theorem standardLife_zero {d : Opcode} (h : Catalog.standard.opcode? .life 0 = some d) :
    d.operation = .finish := by
  have hzero : (Catalog.standard.opcode? .life 0).map Opcode.operation = some .finish := by
    decide +kernel
  rw [h] at hzero
  exact Option.some.inj hzero

namespace ParseState

variable {s : ParseState}

theorem lives_start : (ParseState.start .life).Lives :=
  ⟨.start, fun _ => ⟨rfl, rfl⟩, IndexMap.notes_empty .life⟩

theorem Lives.close (h : s.Lives) {m : Command} (hm : m.IsBlockEnd)
    (hopen : s.blocks ≠ [] ∨ s.switches ≠ []) (blocks : List Nat) (switches : List SwitchFrame) :
    Lives { s with commands := s.commands.push m, blocks, switches } := by
  have hpos : s.nextBehavior ≠ 0 := by
    intro hzero
    obtain ⟨hblocks, hswitches⟩ := h.closed hzero
    exact hopen.elim (absurd hblocks) (absurd hswitches)
  refine ⟨?_, fun hzero => absurd hzero hpos, h.noted.push hm.starts⟩
  obtain ⟨n, hn⟩ := Nat.exists_eq_succ_of_ne_zero hpos
  have horder := h.order
  simp only [Array.toList_push]
  rw [hn] at horder ⊢
  exact .step horder (.close hm)

theorem Lives.closeBlocks (h : s.Lives) (c : Cursor) :
    (s.closeBlocks .standard .life c).Lives := by
  have hifs : (s.closeIfs .standard c.position).Lives := by
    refine closeIfs_induct (fun t rest ht hb => ?_) h
    exact ht.close (.inl (Command.isMarker_implicit .standard rfl [] .endIf)) (.inl (by simp [hb]))
      rest t.switches
  unfold ParseState.closeBlocks
  split
  · exact hifs
  · refine closeSwitches_induct (fun t f rest ht hs _ => ?_) hifs
    exact ht.close (.inr (Command.isMarker_implicit .standard rfl [] .endSwitch))
      (.inr (by simp [hs])) t.blocks rest

/-- When a command is read, a behavior is due only if the command is an END. -/
theorem Lives.ready (h : s.Lives) (c : Cursor) :
    (s.ready .standard .life c).Lives ∧
      ((s.ready .standard .life c).behaviorDue = true → c.peek?.getD 0 = 0) := by
  obtain ⟨horder, hclosed, hnoted⟩ := h.closeBlocks c
  generalize hclose : s.closeBlocks .standard .life c = t at horder hclosed hnoted
  rw [ParseState.ready, hclose]
  unfold ParseState.startBehavior
  split
  · next hbegin =>
      rw [Bool.and_eq_true] at hbegin
      refine ⟨⟨?_, fun hzero => absurd hzero (Nat.succ_ne_zero _), ?_⟩, fun hdue => by cases hdue⟩
      · have hdue : t.behaviorDue = true := hbegin.1
        rw [hdue] at horder
        simp only [Array.toList_push]
        exact .step horder .begin
      · exact hnoted.insert (behaviorStart_starts t.nextBehavior) rfl
  · next hbegin =>
      refine ⟨⟨horder, hclosed, hnoted⟩, fun hdue => ?_⟩
      rw [hdue, Bool.true_and, bne_iff_ne, not_not] at hbegin
      exact hbegin

@[simp] theorem add_nextBehavior (command : Command) (index : Nat) :
    (s.add command index).nextBehavior = s.nextBehavior := by
  unfold add track
  dsimp only
  repeat' split
  all_goals rfl

theorem add_behaviorDue {command : Command}
    (hopens : command.opcode.opensBlock = true → command.opcode.operation ≠ .endBehaviour)
    (index : Nat) : (s.add command index).behaviorDue =
      (s.behaviorDue || command.opcode.operation == .endBehaviour) := by
  by_cases hop : command.opcode.operation = .endBehaviour
  · have hnone : command.opcode.opensBlock = false := by
      rw [← Bool.not_eq_true]
      exact fun h => hopens h hop
    simp [add, track, hnone, hop]
  · rw [beq_eq_false_iff_ne.mpr hop, Bool.or_false]
    unfold add track
    dsimp only
    repeat' split
    all_goals first | rfl | contradiction

theorem track_finish {command : Command} (hopens : command.opcode.opensBlock = false)
    (hop : command.opcode.operation = .finish) (index : Nat) : s.track command index = s := by
  simp [track, hopens, hop]

/-- Reading a command, which is an END where a behavior is due. -/
theorem Lives.add (h : s.Lives) {command : Command} {enclosing : Option Predicate} {o : Nat}
    (hconf : command.Conforms .standard .life enclosing) (ho : command.offset = some o)
    (hend : s.behaviorDue = true → command.opcode.operation = .finish) (index : Nat) :
    (s.add command index).Lives := by
  have hopens : command.opcode.opensBlock = true →
      command.opcode.operation ∉ [.finish, .endBehaviour] := by
    have hall := hconf.of_all standardLife_opensBlock
    intro ho
    simpa [ho] using hall
  have hstep : LifeStep s.behaviorDue s.nextBehavior command
      (s.behaviorDue || command.opcode.operation == .endBehaviour) s.nextBehavior := by
    cases hdue : s.behaviorDue with
    | true => exact .pad (hend hdue)
    | false =>
        by_cases hop : command.opcode.operation = .endBehaviour
        · rw [hop]
          exact .finish hop
        · rw [Bool.false_or, beq_eq_false_iff_ne.mpr hop]
          exact .inside ho hop
  refine ⟨?_, ?_, ?_⟩
  · rw [add_commands, Array.toList_push, add_nextBehavior,
      add_behaviorDue (fun ho hop => hopens ho (by simp [hop]))]
    exact .step h.order hstep
  · -- Before the first behavior only ENDs are read, and they open nothing.
    intro hzero
    rw [add_nextBehavior] at hzero
    have hdue : s.behaviorDue = true := by
      rw [← Bool.not_eq_false]
      exact fun hdue => absurd (h.order.next_pos hdue) (by omega)
    have hop := hend hdue
    have hnone : command.opcode.opensBlock = false := by
      rw [← Bool.not_eq_true]
      exact fun ho => hopens ho (by simp [hop])
    unfold ParseState.add
    rw [track_finish hnone hop]
    exact h.closed hzero
  · rw [add_behaviors, add_commands]
    exact h.noted.push (Command.not_isMarker_of_offset ho .behaviour)

end ParseState

/-- Reading a life script keeps its order. -/
theorem ParseRun.lives {c : Cursor} {s s' : ParseState} {stop : Option (Nat × ParseError)}
    (h : ParseRun .standard .life c s s' stop) (hs : s.Lives) : s'.Lives := by
  induction h with
  | done => exact hs
  | failed => exact (hs.ready _).1
  | @more c after s s' command stop hend hr _ ih =>
      obtain ⟨hconf, hoff, -⟩ := readCommand_eq_ok_iff.mp hr
      obtain ⟨hready, hdue⟩ := hs.ready c
      refine ih (hready.add hconf hoff ?_ _)
      intro h
      have hzero := hdue h
      rw [peek?_of_readCommand hr, Option.getD_some] at hzero
      exact standardLife_zero (hzero ▸ hconf.opcode)

/-! ### Move scripts -/

/-- What reading a move script keeps: nothing is open and nothing is due, nothing was added, and tracks
are noted where they start. -/
structure ParseState.Moves (s : ParseState) : Prop where
  blocks : s.blocks = []
  switches : s.switches = []
  settled : s.behaviorDue = false
  read : ∀ c ∈ s.commands, c.isImplicit = false
  noted : s.tracks.Notes .move s.commands

/-- Commands of move scripts open nothing and end no behavior, and a TRACK has a number. -/
theorem standardMoves_plain :
    (Catalog.standardMoves.toList.all fun d =>
      !d.opensBlock && d.operation ∉ [.switch, .endBehaviour] &&
        (d.operation != .track || d.slots.head? == some .label)) = true := by
  decide +kernel

namespace ParseState

variable {s : ParseState}

theorem moves_start : (ParseState.start .move).Moves :=
  ⟨rfl, rfl, rfl, by simp [ParseState.start], IndexMap.notes_empty .move⟩

theorem Moves.ready (h : s.Moves) (c : Cursor) :
    s.ready .standard .move c = s.enter c.position ∧
      s.entry .standard .move c = s.commands.size := by
  have hclose : s.closeBlocks .standard .move c = s := by
    obtain ⟨commands, offsets, behaviors, tracks, blocks, switches, next, due⟩ := s
    obtain ⟨rfl, rfl, -⟩ := h
    simp [closeBlocks, closeIfs, closeSwitches]
  have hdue : (s.enter c.position).behaviorDue = false := h.settled
  rw [ParseState.ready, entry, hclose, startBehavior, hdue]
  exact ⟨rfl, rfl⟩

theorem Moves.add (h : s.Moves) {command : Command} {enclosing : Option Predicate} {o : Nat}
    (hconf : command.Conforms .standard .move enclosing) (ho : command.offset = some o) :
    (s.add command s.commands.size).Moves := by
  have hplain := hconf.of_all standardMoves_plain
  simp only [Bool.and_eq_true, Bool.or_eq_true, Bool.not_eq_true', decide_eq_true_eq, bne_iff_ne,
    beq_iff_eq, List.mem_cons, List.not_mem_nil, or_false, not_or] at hplain
  obtain ⟨⟨hopens, hswitch, hend⟩, htrack⟩ := hplain
  obtain ⟨hblocks, hswitches, hdue, hread, hnoted⟩ := h
  refine ⟨?_, ?_, ?_, ?_, ?_⟩
  · unfold ParseState.add track
    dsimp only
    repeat' split
    all_goals simp_all
  · unfold ParseState.add track
    dsimp only
    repeat' split
    all_goals simp_all
  · rw [add_behaviorDue (by simp [hopens]), hdue, beq_eq_false_iff_ne.mpr hend]
    rfl
  · intro c hc
    rw [add_commands, Array.mem_push] at hc
    rcases hc with hc | rfl
    · exact hread c hc
    · exact Command.isImplicit_eq_false ho
  · rw [add_commands]
    by_cases hop : command.opcode.operation = .track
    · obtain ⟨n, -, hn⟩ := hconf.firstNumber (htrack.resolve_left (fun h => h hop)) (.inl rfl)
      have htracks : (s.add command s.commands.size).tracks = s.tracks.insert s.commands.size n := by
        simp [ParseState.add, track, hopens, hop, hn]
      rw [htracks]
      exact hnoted.insert (beq_iff_eq.mpr hop) hn
    · have htracks : (s.add command s.commands.size).tracks = s.tracks := by
        unfold ParseState.add track
        dsimp only
        repeat' split
        all_goals first | rfl | contradiction
      rw [htracks]
      exact hnoted.push (beq_eq_false_iff_ne.mpr hop)

end ParseState

theorem ParseRun.moves {c : Cursor} {s s' : ParseState} {stop : Option (Nat × ParseError)}
    (h : ParseRun .standard .move c s s' stop) (hs : s.Moves) : s'.Moves := by
  induction h with
  | done => exact hs
  | @failed c s e _ _ =>
      rw [(hs.ready c).1]
      exact ⟨hs.blocks, hs.switches, hs.settled, hs.read, hs.noted⟩
  | @more c after s s' command stop hend hr _ ih =>
      obtain ⟨hconf, hoff, -⟩ := readCommand_eq_ok_iff.mp hr
      obtain ⟨hready, hentry⟩ := hs.ready c
      have hsame : (s.enter c.position).Moves :=
        ⟨hs.blocks, hs.switches, hs.settled, hs.read, hs.noted⟩
      rw [hready, hentry] at ih
      exact ih (hsame.add hconf hoff)

/-! ### The part of an instruction -/

namespace Compile

/-- The part of the next instruction: the one that starts there, or the part so far. -/
theorem partFrom_succ (starts : IndexMap Int) (part : Option Int) (first k : Nat) :
    partFrom starts part first (k + 1) =
      starts[first + (k + 1)]?.or (partFrom starts part first k) := by
  induction k generalizing part first with
  | zero => rfl
  | succ k ih =>
      rw [partFrom, ih, partFrom, Nat.add_right_comm]
      rfl

end Compile

/-- The part that the commands are in: the one that was started last. -/
def currentPart (kind : ScriptKind) (commands : List Command) : Option Int :=
  (commands.filter (Command.starts kind)).getLast?.bind Command.firstNumber?

theorem currentPart_append {kind : ScriptKind} {c : Command}
    (hnumber : c.starts kind = true → ∃ n, c.firstNumber? = some n) (commands : List Command) :
    currentPart kind (commands ++ [c]) = (c.part? kind).or (currentPart kind commands) := by
  unfold currentPart Command.part?
  rw [List.filter_append, List.getLast?_append]
  cases hc : c.starts kind with
  | false => simp [hc]
  | true =>
      obtain ⟨n, hn⟩ := hnumber hc
      simp [hc, hn]

theorem partFrom_eq {kind : ScriptKind} {commands : Array Command} {starts : IndexMap Int}
    (h : starts.Notes kind commands) {k : Nat} (hk : k < commands.size) :
    Compile.partFrom starts none 0 k = currentPart kind (commands.toList.take (k + 1)) := by
  have hstep : ∀ j < commands.size, currentPart kind (commands.toList.take (j + 1)) =
      starts[j]?.or (currentPart kind (commands.toList.take j)) := by
    intro j hj
    rw [h.entries j, Array.getElem?_eq_getElem hj, Option.bind_some, List.take_add_one,
      Array.getElem?_toList, Array.getElem?_eq_getElem hj, Option.toList_some]
    exact currentPart_append (h.numbered _ (Array.getElem_mem hj)) _
  induction k with
  | zero =>
      rw [Compile.partFrom, hstep 0 hk]
      rfl
  | succ k ih => rw [Compile.partFrom_succ, hstep _ hk, ih (by omega), Nat.zero_add]

/-! ### Whole scripts -/

/-- The parts that a script has, by the indices where they start. -/
def ParsedScript.parts (s : ParsedScript) : ScriptKind → IndexMap Int
  | .life => s.behaviors
  | .move => s.tracks

theorem lives_parseScript (scene actor : Nat) (bytes : List UInt8) :
    ∃ (s : ParseState) (stop : Option Nat), s.Lives ∧
      (parseScript .standard scene (.life actor) bytes).1 = s.script (.life actor) stop := by
  obtain ⟨s, stop, hrun, he⟩ := parseScript_eq .standard scene (.life actor) bytes
  exact ⟨s, stop.map Prod.fst, hrun.lives ParseState.lives_start, by rw [he]⟩

theorem moves_parseScript (scene actor : Nat) (bytes : List UInt8) :
    ∃ (s : ParseState) (stop : Option Nat), s.Moves ∧
      (parseScript .standard scene (.move actor) bytes).1 = s.script (.move actor) stop := by
  obtain ⟨s, stop, hrun, he⟩ := parseScript_eq .standard scene (.move actor) bytes
  exact ⟨s, stop.map Prod.fst, hrun.moves ParseState.moves_start, by rw [he]⟩

theorem notes_parseScript (scene : Nat) (id : ScriptId) (bytes : List UInt8) :
    IndexMap.Notes id.kind (parseScript .standard scene id bytes).1.commands
      ((parseScript .standard scene id bytes).1.parts id.kind) := by
  obtain ⟨actor, kind⟩ := id
  cases kind with
  | life =>
      obtain ⟨s, stop, hs, he⟩ := lives_parseScript scene actor bytes
      rw [ScriptId.life] at he
      rw [he]
      exact hs.noted
  | move =>
      obtain ⟨s, stop, hs, he⟩ := moves_parseScript scene actor bytes
      rw [ScriptId.move] at he
      rw [he]
      exact hs.noted

/-- An instruction of a compiled script belongs to the part that was started last. -/
theorem part_eq (scene : Nat) (id : ScriptId) (bytes : List UInt8) (actors : Array ParsedActor)
    (layout : Layout) (k : Nat) :
    let script := (parseScript .standard scene id bytes).1
    let program := (Compile.script scene layout (Link.script actors scene script).1).1
    program.instructions[k]?.map Instruction.part =
      script.commands[k]?.map fun _ => currentPart id.kind (script.commands.toList.take (k + 1)) := by
  intro script program
  have hid : script.id = id := parseScript_id .standard scene id bytes
  have hstarts : Compile.parts (Link.script actors scene script).1 = script.parts id.kind := by
    rw [← hid]
    rfl
  simp only [program]
  rw [Compile.getElem?_script_instructions, Link.getElem?_script_commands, hstarts]
  cases hc : script.commands[k]? with
  | none => rfl
  | some c =>
      have hk := (Array.getElem?_eq_some_iff.mp hc).1
      simp only [Option.map_some]
      exact congrArg some (partFrom_eq (notes_parseScript scene id bytes) hk)

/-- **The parts of parsed and compiled scripts.** In a life script the map of behaviors has the added
BEHAVIOURs, each with its own number, and these are 0, 1, 2 and so on. In front of the first one stand
ENDs only; between one and the next stands one END_BEHAVIOUR, and behind it ENDs and added ends of
blocks only. In a move script nothing is added, and the map of tracks has the TRACKs with the numbers
they declare. Compiled, an instruction belongs to the part that was started last at or before it, if
there is one. -/
theorem parseScript_parts (scene actor : Nat) (bytes : List UInt8) :
    let life := (parseScript .standard scene (.life actor) bytes).1
    let moves := (parseScript .standard scene (.move actor) bytes).1
    ((∀ (k : Nat) (n : Int), life.behaviors[k]? = some n ↔ ∃ m, life.commands[k]? = some m ∧
        m.isMarker .behaviour = true ∧ m.firstNumber? = some n) ∧
      (∃ count : Nat,
        (life.commands.toList.filter fun m => m.isMarker .behaviour).map Command.firstNumber? =
          (List.range count).map fun n : Nat => some (n : Int)) ∧
      (∀ before c after, life.commands.toList = before ++ c :: after →
        (∀ m ∈ before, m.isMarker .behaviour = false) →
        c.isMarker .behaviour = true ∨ c.opcode.operation = .finish) ∧
      ∀ before m mid m' after, life.commands.toList = before ++ m :: (mid ++ m' :: after) →
        m.isMarker .behaviour = true → m'.isMarker .behaviour = true →
        (∀ c ∈ mid, c.isMarker .behaviour = false) → EndsOnce mid) ∧
    ((∀ c ∈ moves.commands, c.isImplicit = false) ∧
      (∀ c ∈ moves.commands, c.opcode.operation = .track → ∃ n, c.firstNumber? = some n) ∧
      ∀ (k : Nat) (n : Int), moves.tracks[k]? = some n ↔ ∃ c, moves.commands[k]? = some c ∧
        c.opcode.operation = .track ∧ c.firstNumber? = some n) ∧
    ∀ (actors : Array ParsedActor) (layout : Layout), ∀ script ∈ [life, moves], ∀ k : Nat,
      let program := (Compile.script scene layout (Link.script actors scene script).1).1
      program.instructions[k]?.map Instruction.part = script.commands[k]?.map fun _ =>
        currentPart script.id.kind (script.commands.toList.take (k + 1)) := by
  intro life moves
  obtain ⟨s, stop, hlife, hs⟩ := lives_parseScript scene actor bytes
  obtain ⟨t, stop', hmoves, ht⟩ := moves_parseScript scene actor bytes
  have horder : LifeOrder s.behaviorDue s.nextBehavior life.commands.toList := by
    simp only [life, hs]
    exact hlife.order
  have hbehaviors := notes_parseScript scene (.life actor) bytes
  have htracks := notes_parseScript scene (.move actor) bytes
  refine ⟨⟨hbehaviors.getElem?_iff, ⟨s.nextBehavior, horder.numbers⟩, ?_, ?_⟩, ⟨?_, ?_, ?_⟩, ?_⟩
  · intro before c after hsplit hnone
    exact horder.lead hsplit hnone
  · intro before m mid m' after hsplit hm hm' hmid
    exact horder.between hsplit hm hm' hmid
  · simp only [moves, ht]
    exact hmoves.read
  · intro c hc hop
    exact htracks.numbered c hc (beq_iff_eq.mpr hop)
  · intro k n
    refine (htracks.getElem?_iff k n).trans ?_
    exact exists_congr fun c => and_congr_right fun _ => and_congr_left' beq_iff_eq
  · intro actors layout script hscript k
    simp only [List.mem_cons, List.not_mem_nil, or_false] at hscript
    rcases hscript with rfl | rfl
    · rw [parseScript_id]
      exact part_eq scene (.life actor) bytes actors layout k
    · rw [parseScript_id]
      exact part_eq scene (.move actor) bytes actors layout k

end SceneScript
