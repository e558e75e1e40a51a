import SceneScript.Proofs.OffsetMap
import SceneScript.Proofs.References

/-! # The ends of blocks

The bytes of a script hold no ENDIF for most of its conditionals and no END_SWITCH for most of its
switches: the parser adds them where a jump leads. Every end it adds is accounted for.

* `Closes kind stop commands ends`: among `commands` no more blocks of a kind are closed than opened,
  the ends of those still open, `ends`, are the targets of commands that were read, and so is the place
  of every end that was added. Adding an end takes one off `ends`, and reading a command changes them in
  one of four ways (`EndsStep`).
* `EndsInOrder`: what was added behind the last command that was read decides what may be added or
  read next.
* `ParseState.Justified`: both, for the commands and the stacks of the parser, kept by every turn of
  the loop (`ParseRun.justified`).
* `parseScript_justified`: what follows for scripts, in terms of indices and offsets. -/

namespace SceneScript

/-! ### Kinds of blocks -/

/-- The kinds of blocks that the parser closes. -/
inductive BlockKind where
  | conditional
  | switch

namespace BlockKind

def closing : BlockKind → Operation
  | .conditional => .endIf
  | .switch => .endSwitch

def opening : BlockKind → List Operation
  | .conditional => [.ifThen, .swif, .oneIf, .snif, .neverIf]
  | .switch => [.switch]

/-- The operations whose jumps say where a block ends. -/
def leading : BlockKind → List Operation
  | .conditional => [.ifThen, .swif, .oneIf, .snif, .neverIf, .elseThen]
  | .switch => [.caseArm, .orCaseArm, .breakOff]

end BlockKind

namespace Command

def opens (kind : BlockKind) (c : Command) : Bool := c.opcode.operation ∈ kind.opening

/-- Whether a command is the end of a block of a kind, added. -/
def closes (kind : BlockKind) (c : Command) : Bool := c.isMarker kind.closing

/-- A command whose jump says that a block of a kind ends at an offset. -/
def LeadsTo (kind : BlockKind) (offset : Nat) (c : Command) : Prop :=
  c.opcode.operation ∈ kind.leading ∧ c.firstNumber? = some (offset : Int)

end Command

/-! ### The place of a command -/

/-- Where the first of some commands stands: at the offset of the first one that was read, or where
reading stopped. -/
def placeOf (stop : Option Nat) (commands : List Command) : Option Nat :=
  (commands.findSome? Command.offset).or stop

theorem placeOf_concat (stop : Option Nat) (commands : List Command) (c : Command) :
    placeOf stop (commands ++ [c]) = placeOf (c.offset.or stop) commands := by
  rw [placeOf, placeOf, List.findSome?_append, List.findSome?_singleton, Option.or_assoc]

theorem placeOf_cons (stop : Option Nat) (c : Command) (commands : List Command) :
    placeOf stop (c :: commands) = c.offset.or (placeOf stop commands) := by
  rw [placeOf, placeOf, List.findSome?_cons]
  cases c.offset <;> rfl

/-! ### Blocks that are closed -/

/-- What reading a command does to the ends of the open blocks of a kind. -/
inductive EndsStep (kind : BlockKind) (c : Command) : List (Option Nat) → List (Option Nat) → Prop
  | same {ends : List (Option Nat)} : EndsStep kind c ends ends
  | opened {ends : List (Option Nat)} {e : Option Nat} : c.opens kind = true →
      (∀ p, e = some p → c.LeadsTo kind p) → EndsStep kind c ends (e :: ends)
  | moved {ends : List (Option Nat)} {e e' : Option Nat} :
      (∀ p, e' = some p → e = some p ∨ c.LeadsTo kind p) →
      EndsStep kind c (e :: ends) (e' :: ends)
  | closed {ends : List (Option Nat)} {e : Option Nat} : EndsStep kind c (e :: ends) ends

theorem EndsStep.length_le {kind : BlockKind} {c : Command} {ends ends' : List (Option Nat)}
    (h : EndsStep kind c ends ends') :
    ends'.length ≤ ends.length + if c.opens kind = true then 1 else 0 := by
  cases h with
  | same => exact Nat.le_add_right ..
  | opened hopens => rw [if_pos hopens, List.length_cons]
  | moved => exact Nat.le_add_right ..
  | closed => exact Nat.le_add_right_of_le (Nat.le_succ _)

theorem EndsStep.known {kind : BlockKind} {c : Command} {ends ends' : List (Option Nat)}
    (h : EndsStep kind c ends ends') {p : Nat} (hp : some p ∈ ends') :
    some p ∈ ends ∨ c.LeadsTo kind p := by
  cases h with
  | same => exact .inl hp
  | opened _ hleads =>
      rcases List.mem_cons.mp hp with he | hp
      · exact .inr (hleads p he.symm)
      · exact .inl hp
  | moved hleads =>
      rcases List.mem_cons.mp hp with he | hp
      · rcases hleads p he.symm with rfl | hleads
        · exact .inl (List.mem_cons_self ..)
        · exact .inr hleads
      · exact .inl (List.mem_cons_of_mem _ hp)
  | closed => exact .inl (List.mem_cons_of_mem _ hp)

/-- The blocks of a kind among commands. `ends` are the ends of those still open, as far as they are
known, and `stop` is where the next command is to be read, or where reading stopped. -/
structure Closes (kind : BlockKind) (stop : Option Nat) (commands : List Command)
    (ends : List (Option Nat)) : Prop where
  counted : commands.countP (Command.closes kind) + ends.length ≤
    commands.countP (Command.opens kind)
  prefixes : ∀ u, u <+: commands → u.countP (Command.closes kind) ≤ u.countP (Command.opens kind)
  known : ∀ p, some p ∈ ends → ∃ c ∈ commands, c.LeadsTo kind p
  placed : ∀ before m after, commands = before ++ m :: after → m.closes kind = true →
    ∃ p, placeOf stop after = some p ∧ ∃ c ∈ before, c.LeadsTo kind p

namespace Closes

variable {kind : BlockKind} {stop : Option Nat} {commands : List Command}
  {ends ends' : List (Option Nat)} {p : Nat} {c : Command}

theorem nil (kind : BlockKind) (stop : Option Nat) : Closes kind stop [] [] := by
  refine ⟨Nat.le_refl 0, ?_, by simp, by simp⟩
  intro u hu
  rw [List.prefix_nil.mp hu]
  exact Nat.le_refl 0

theorem prefixes_concat (h : Closes kind stop commands ends)
    (hcount : (commands ++ [c]).countP (Command.closes kind) + ends'.length ≤
      (commands ++ [c]).countP (Command.opens kind)) :
    ∀ u, u <+: commands ++ [c] → u.countP (Command.closes kind) ≤ u.countP (Command.opens kind) := by
  intro u hu
  rcases List.prefix_concat_iff.mp hu with rfl | hu
  · exact Nat.le_of_add_right_le hcount
  · exact h.prefixes u hu

theorem counted_concat (h : Closes kind stop commands ends) (hc : c.closes kind = false)
    (hlength : ends'.length ≤ ends.length + if c.opens kind = true then 1 else 0) :
    (commands ++ [c]).countP (Command.closes kind) + ends'.length ≤
      (commands ++ [c]).countP (Command.opens kind) := by
  have hcounted := h.counted
  rw [List.countP_append, List.countP_append, List.countP_singleton, List.countP_singleton,
    if_neg (by simp [hc])]
  omega

theorem known_concat (h : Closes kind stop commands ends) {q : Nat} (hq : some q ∈ ends) :
    ∃ d ∈ commands ++ [c], d.LeadsTo kind q := by
  obtain ⟨d, hd, hleads⟩ := h.known q hq
  exact ⟨d, List.mem_append_left _ hd, hleads⟩

theorem close (h : Closes kind (some p) commands (some p :: ends)) (hc : c.closes kind = true) :
    Closes kind (some p) (commands ++ [c]) ends := by
  have hcount : (commands ++ [c]).countP (Command.closes kind) + ends.length ≤
      (commands ++ [c]).countP (Command.opens kind) := by
    have hcounted := h.counted
    rw [List.length_cons] at hcounted
    rw [List.countP_append, List.countP_append, List.countP_singleton, if_pos hc]
    omega
  refine ⟨hcount, h.prefixes_concat hcount, ?_, ?_⟩
  · intro q hq
    exact h.known_concat (List.mem_cons_of_mem _ hq)
  · intro before m after hsplit hm
    rcases split_concat hsplit with ⟨rfl, rfl, rfl⟩ | ⟨w, rfl, hw⟩
    · exact ⟨p, rfl, h.known p (List.mem_cons_self ..)⟩
    · rw [placeOf_concat, (Command.isMarker_iff.mp hc).1]
      exact h.placed before m w hw hm

theorem pass (h : Closes kind stop commands ends) (hread : c.offset = none)
    (hc : c.closes kind = false) : Closes kind stop (commands ++ [c]) ends := by
  have hcount := h.counted_concat hc (Nat.le_add_right ends.length _)
  refine ⟨hcount, h.prefixes_concat hcount, fun q hq => h.known_concat hq, ?_⟩
  intro before m after hsplit hm
  rcases split_concat hsplit with ⟨-, rfl, -⟩ | ⟨w, rfl, hw⟩
  · exact absurd (hc.symm.trans hm) (by decide)
  · rw [placeOf_concat, hread]
    exact h.placed before m w hw hm

/-- Reading a command. What was added in front of it stands where it stands. -/
theorem read (h : Closes kind (some p) commands ends) (ho : c.offset = some p)
    (hstep : EndsStep kind c ends ends') (stop : Option Nat) :
    Closes kind stop (commands ++ [c]) ends' := by
  have hc : c.closes kind = false := Command.not_isMarker_of_offset ho kind.closing
  have hcount := h.counted_concat hc hstep.length_le
  refine ⟨hcount, h.prefixes_concat hcount, ?_, ?_⟩
  · intro q hq
    rcases hstep.known hq with hq | hleads
    · exact h.known_concat hq
    · exact ⟨c, by simp, hleads⟩
  · intro before m after hsplit hm
    rcases split_concat hsplit with ⟨-, rfl, -⟩ | ⟨w, rfl, hw⟩
    · exact absurd (hc.symm.trans hm) (by decide)
    · rw [placeOf_concat, ho]
      exact h.placed before m w hw hm

end Closes

/-! ### What stands at one place -/

/-- A command that was added behind the last one that was read. -/
def Pending (commands : List Command) (m : Command) : Prop :=
  ∃ u v, commands = u ++ m :: v ∧ ∀ d ∈ m :: v, d.isImplicit = true

theorem Pending.of_concat {commands : List Command} {c m : Command}
    (h : Pending (commands ++ [c]) m) : c.isImplicit = true ∧ (m = c ∨ Pending commands m) := by
  obtain ⟨u, v, hsplit, hall⟩ := h
  rcases split_concat hsplit with ⟨-, rfl, -⟩ | ⟨w, rfl, hw⟩
  · exact ⟨hall m (List.mem_cons_self ..), .inl rfl⟩
  · rw [← List.cons_append, List.forall_mem_append, List.forall_mem_singleton] at hall
    exact ⟨hall.2, .inr ⟨u, w, hw, hall.1⟩⟩

/-- Whether a command may stand behind an added one at the same place: an ENDIF only behind ENDIFs, and
a label not behind the end of a switch. -/
structure MayFollow (m c : Command) : Prop where
  endIf : c.isMarker .endIf = true → m.isMarker .endIf = true
  label : c.isImplicit = false → c.opcode.operation.isCaseLabel = true →
    m.isMarker .endSwitch = false

/-- What stands at one place stands there in order. -/
def EndsInOrder (commands : List Command) : Prop :=
  ∀ before c after, commands = before ++ c :: after → ∀ m, Pending before m → MayFollow m c

theorem EndsInOrder.concat {commands : List Command} (h : EndsInOrder commands) {c : Command}
    (hc : ∀ m, Pending commands m → MayFollow m c) : EndsInOrder (commands ++ [c]) := by
  intro before d after hsplit
  rcases split_concat hsplit with ⟨rfl, rfl, -⟩ | ⟨w, -, hw⟩
  · exact hc
  · exact h before d w hw

/-! ### Reading a life script -/

/-- The ends of the open blocks of a kind, innermost first. -/
def ParseState.ends (s : ParseState) : BlockKind → List (Option Nat)
  | .conditional => s.blocks.map some
  | .switch => s.switches.map SwitchFrame.reach

/-- The commands and the stacks of the parser agree, with the next command to be read at `stop`. -/
structure ParseState.Justified (stop : Option Nat) (s : ParseState) : Prop where
  closes : ∀ kind, Closes kind stop s.commands.toList (s.ends kind)
  order : EndsInOrder s.commands.toList

/-- In life scripts the conditionals open blocks and nothing else does, and a command that says where a
block ends has its jump in front. -/
theorem standardLife_blocks :
    (Catalog.standardLife.toList.all fun d =>
      d.opensBlock == decide (d.operation ∈ BlockKind.conditional.opening) &&
        (d.operation ∉ BlockKind.conditional.leading ++ BlockKind.switch.leading ||
          d.slots.head? == some .jump)) = true := by
  decide +kernel

theorem Command.Conforms.leadsTo {c : Command} {enclosing : Option Predicate} {kind : BlockKind}
    (h : c.Conforms .standard .life enclosing) (hop : c.opcode.operation ∈ kind.leading) {t : Nat}
    (ht : c.firstNumber?.map ParseState.jumpOffset = some t) : c.LeadsTo kind t := by
  have hall := h.of_all standardLife_blocks
  have hboth : c.opcode.operation ∈ BlockKind.conditional.leading ++ BlockKind.switch.leading := by
    cases kind with
    | conditional => exact List.mem_append_left _ hop
    | switch => exact List.mem_append_right _ hop
  simp only [Bool.and_eq_true, Bool.or_eq_true, decide_eq_true_eq, beq_iff_eq] at hall
  obtain ⟨n, hn, hfirst⟩ := h.firstNumber (hall.2.resolve_left fun hnot => hnot hboth) (.inr rfl)
  rw [hfirst, Option.map_some, jumpOffset_natCast hn, Option.some.injEq] at ht
  exact ⟨hop, ht ▸ hfirst⟩

theorem Command.Conforms.opens_of_opensBlock {c : Command} {enclosing : Option Predicate}
    (h : c.Conforms .standard .life enclosing) (hopens : c.opcode.opensBlock = true) :
    c.opens .conditional = true := by
  have hall := h.of_all standardLife_blocks
  rw [hopens, Bool.and_eq_true, beq_iff_eq] at hall
  exact hall.1.symm

theorem SwitchFrame.reach_extend_cases {f : SwitchFrame} {t q : Nat} (h : (f.extend t).reach = some q) :
    f.reach = some q ∨ q = t := by
  unfold SwitchFrame.extend at h
  cases hr : f.reach with
  | none =>
      simp only [hr, Option.some.injEq] at h
      exact .inr h.symm
  | some r =>
      simp only [hr, Option.some.injEq] at h
      rcases Nat.le_total r t with hle | hle
      · rw [Nat.max_eq_right hle] at h
        exact .inr h.symm
      · rw [Nat.max_eq_left hle] at h
        exact .inl (congrArg some h)

theorem endsStep_extend {command : Command} {f : SwitchFrame} {rest : List SwitchFrame} {t : Nat}
    (hleads : command.LeadsTo .switch t) :
    EndsStep .switch command ((f :: rest).map SwitchFrame.reach)
      ((f.extend t :: rest).map SwitchFrame.reach) := by
  refine .moved fun q hq => ?_
  rcases SwitchFrame.reach_extend_cases hq with hq | rfl
  · exact .inl hq
  · exact .inr hleads

namespace ParseState

variable {s : ParseState} {p : Nat}

theorem Justified.add_marker {t : ParseState} {o : Operation} {args : List Argument}
    (h : s.Justified (some p)) (ho : (Catalog.builtinMarker o).operation = o)
    (hcommands : t.commands = s.commands.push (.implicit (Catalog.standard.marker o) args))
    (hends : ∀ kind, s.ends kind = if o = kind.closing then some p :: t.ends kind else t.ends kind)
    (hpending : o = .endIf → ∀ m, Pending s.commands.toList m → m.isMarker .endIf = true) :
    t.Justified (some p) := by
  have hmarker := Command.isMarker_implicit .standard ho args
  refine ⟨fun kind => ?_, ?_⟩
  · have hkind := h.closes kind
    rw [hcommands, Array.toList_push]
    rw [hends kind] at hkind
    split at hkind
    · next hclosing =>
        refine hkind.close ?_
        rw [Command.closes, hmarker, beq_iff_eq]
        exact hclosing
    · next hclosing =>
        refine hkind.pass rfl ?_
        rw [Command.closes, hmarker, beq_eq_false_iff_ne]
        exact hclosing
  · rw [hcommands, Array.toList_push]
    refine h.order.concat fun m hm => ⟨fun hif => ?_, fun hread => by cases hread⟩
    rw [hmarker, beq_iff_eq] at hif
    exact hpending hif m hm

theorem Justified.closeIfs (h : s.Justified (some p))
    (hrest : ∀ m, ¬ Pending s.commands.toList m) :
    (s.closeIfs .standard p).Justified (some p) ∧
      ∀ m, Pending (s.closeIfs .standard p).commands.toList m → m.isMarker .endIf = true := by
  refine closeIfs_induct (P := fun t => t.Justified (some p) ∧
    ∀ m, Pending t.commands.toList m → m.isMarker .endIf = true) ?_
    ⟨h, fun m hm => absurd hm (hrest m)⟩
  rintro t rest ⟨ht, hpending⟩ hblocks
  refine ⟨ht.add_marker (o := .endIf) rfl rfl ?_ fun _ => hpending, ?_⟩
  · rintro (_ | _)
    · simp [ends, BlockKind.closing, hblocks]
    · simp [ends, BlockKind.closing]
  · intro m hm
    rw [Array.toList_push] at hm
    rcases hm.of_concat.2 with rfl | hm
    · exact Command.isMarker_implicit .standard rfl [] .endIf
    · exact hpending m hm

/-- Closing blocks. No switch is closed in front of a label. -/
theorem Justified.closeBlocks {c : Cursor} (h : s.Justified (some c.position))
    (hrest : ∀ m, ¬ Pending s.commands.toList m) :
    (s.closeBlocks .standard .life c).Justified (some c.position) ∧
      (atCaseLabel .standard .life c = true → ∀ m,
        Pending (s.closeBlocks .standard .life c).commands.toList m →
        m.isMarker .endSwitch = false) := by
  obtain ⟨hifs, hpending⟩ := h.closeIfs hrest
  unfold ParseState.closeBlocks
  split
  · refine ⟨hifs, fun _ m hm => ?_⟩
    have hop := (Command.isMarker_iff.mp (hpending m hm)).2
    rw [Command.isMarker, hop]
    exact Bool.and_false _
  · next hlabel =>
      refine ⟨closeSwitches_induct (fun t f rest ht hswitches hreach => ?_) hifs,
        fun h => absurd h hlabel⟩
      refine ht.add_marker (o := .endSwitch) rfl rfl ?_ (by simp)
      rintro (_ | _)
      · simp [ends, BlockKind.closing]
      · simp [ends, BlockKind.closing, hswitches, hreach]

theorem Justified.ready {c : Cursor} (h : s.Justified (some c.position))
    (hrest : ∀ m, ¬ Pending s.commands.toList m) :
    (s.ready .standard .life c).Justified (some c.position) ∧
      (atCaseLabel .standard .life c = true → ∀ m,
        Pending (s.ready .standard .life c).commands.toList m → m.isMarker .endSwitch = false) := by
  obtain ⟨hclose, hlabel⟩ := h.closeBlocks hrest
  have henter : ((s.closeBlocks .standard .life c).enter c.position).Justified (some c.position) :=
    ⟨hclose.closes, hclose.order⟩
  unfold ParseState.ready startBehavior
  split
  · refine ⟨henter.add_marker (o := .behaviour) rfl rfl ?_ (by simp), fun hc m hm => ?_⟩
    · rintro (_ | _) <;> simp [ends, BlockKind.closing]
    · rw [Array.toList_push] at hm
      rcases hm.of_concat.2 with rfl | hm
      · exact Command.isMarker_implicit .standard rfl _ .endSwitch
      · exact hlabel hc m hm
  · exact ⟨henter, hlabel⟩

theorem blocks_add {command : Command} {enclosing : Option Predicate}
    (hconf : command.Conforms .standard .life enclosing) (index : Nat) :
    EndsStep .conditional command (s.blocks.map some) ((s.add command index).blocks.map some) := by
  unfold ParseState.add track
  dsimp only
  split
  · next hopens =>
      have hop := hconf.opens_of_opensBlock hopens
      have hlead : command.opcode.operation ∈ BlockKind.conditional.leading :=
        List.mem_append_left [Operation.elseThen] (of_decide_eq_true hop)
      cases ht : command.firstNumber?.map jumpOffset with
      | none => exact .same
      | some t =>
          refine .opened hop fun q hq => ?_
          obtain rfl := Option.some.inj hq
          exact hconf.leadsTo hlead ht
  · split
    -- ELSE moves the end of the innermost block, and no other command that opens none does.
    · next hop =>
        split
        · next hblocks ht =>
            rw [hblocks]
            refine .moved fun q hq => .inr ?_
            obtain rfl := Option.some.inj hq
            exact hconf.leadsTo (by rw [hop]; decide) ht
        · exact .same
    all_goals repeat' split
    all_goals exact .same

theorem switches_add {command : Command} {enclosing : Option Predicate}
    (hconf : command.Conforms .standard .life enclosing) (index : Nat) :
    EndsStep .switch command (s.switches.map SwitchFrame.reach)
      ((s.add command index).switches.map SwitchFrame.reach) := by
  have hextend : command.opcode.operation ∈ BlockKind.switch.leading → ∀ f rest t,
      s.switches = f :: rest → command.firstNumber?.map jumpOffset = some t →
      EndsStep .switch command (s.switches.map SwitchFrame.reach)
        ((f.extend t :: rest).map SwitchFrame.reach) := by
    intro hop f rest t hs ht
    rw [hs]
    exact endsStep_extend (hconf.leadsTo hop ht)
  unfold ParseState.add track
  dsimp only
  split
  · exact .same
  · split
    -- SWITCH opens a switch, whose end is not known yet.
    case h_2 =>
      next hop =>
        split
        · exact .opened (by rw [Command.opens, hop]; decide) (by simp)
        · exact .same
    -- CASE, OR_CASE and BREAK move its end.
    case h_3 | h_4 | h_5 =>
      next hop =>
        split
        · next hs ht => exact hextend (by rw [hop]; decide) _ _ _ hs ht
        · exact .same
    -- END_SWITCH closes it, wherever it was to end.
    case h_6 =>
      cases s.switches with
      | nil => exact .same
      | cons f rest => exact .closed
    all_goals repeat' split
    all_goals exact .same

theorem justified_start (stop : Option Nat) : (ParseState.start .life).Justified stop := by
  refine ⟨?_, ?_⟩
  · rintro (_ | _)
    · exact .nil .conditional stop
    · exact .nil .switch stop
  · intro before c after hsplit
    simp [ParseState.start] at hsplit

/-- Reading a command. Behind it nothing is added yet, so that the next place does not matter. -/
theorem Justified.add (h : s.Justified (some p)) {command : Command} {enclosing : Option Predicate}
    (hconf : command.Conforms .standard .life enclosing) (ho : command.offset = some p)
    (hlabel : command.opcode.operation.isCaseLabel = true → ∀ m,
      Pending s.commands.toList m → m.isMarker .endSwitch = false) (index : Nat) :
    (∀ stop, (s.add command index).Justified stop) ∧
      ∀ m, ¬ Pending (s.add command index).commands.toList m := by
  have hread : command.isImplicit = false := Command.isImplicit_eq_false ho
  have hcommands : (s.add command index).commands.toList = s.commands.toList ++ [command] := by
    rw [add_commands, Array.toList_push]
  refine ⟨fun stop => ⟨fun kind => ?_, ?_⟩, fun m hm => ?_⟩
  · rw [hcommands]
    refine (h.closes kind).read ho ?_ stop
    cases kind with
    | conditional => exact blocks_add hconf index
    | switch => exact switches_add hconf index
  · rw [hcommands]
    refine h.order.concat fun m hm => ⟨fun hif => ?_, fun _ hc => hlabel hc m hm⟩
    exact absurd (hif.symm.trans (Command.not_isMarker_of_offset ho .endIf)) (by decide)
  · rw [hcommands] at hm
    exact absurd (hread.symm.trans hm.of_concat.1) (by decide)

end ParseState

/-- Reading a life script keeps the commands and the stacks in agreement, up to the end of the bytes or
to the place where it fails. -/
theorem ParseRun.justified {c : Cursor} {s s' : ParseState} {stop : Option (Nat × ParseError)}
    (h : ParseRun .standard .life c s s' stop) (hs : ∀ stop, s.Justified stop)
    (hrest : ∀ m, ¬ Pending s.commands.toList m) : s'.Justified (stop.map Prod.fst) := by
  induction h with
  | done => exact hs none
  | @failed c s e _ _ =>
      exact ((hs (some c.position)).ready hrest).1
  | @more c after s s' command stop hend hr _ ih =>
      obtain ⟨hconf, hoff, -⟩ := readCommand_eq_ok_iff.mp hr
      obtain ⟨hready, hlabel⟩ := (hs (some c.position)).ready hrest
      have hat : ParseState.atCaseLabel .standard .life c = command.opcode.operation.isCaseLabel := by
        rw [ParseState.atCaseLabel, peek?_of_readCommand hr, Option.bind_some, hconf.opcode]
      obtain ⟨hadd, hnone⟩ := hready.add hconf hoff (fun h => hlabel (hat.trans h)) _
      exact ih hadd hnone

/-! ### Whole scripts -/

/-- Where a command of a script stands: at its offset, or where the next command was to be read. -/
def ParsedScript.placeOf? (s : ParsedScript) (k : Nat) : Option Nat :=
  placeOf s.truncatedAt (s.commands.toList.drop k)

section
variable {scene : Nat} {id : ScriptId} {bytes : List UInt8}

theorem lt_placeOf {j k o p : Nat} {c : Command}
    (hc : (parseScript .standard scene id bytes).1.commands[j]? = some c) (ho : c.offset = some o)
    (hjk : j < k) (hp : (parseScript .standard scene id bytes).1.placeOf? k = some p) : o < p := by
  rw [ParsedScript.placeOf?, placeOf, Option.or_eq_some_iff] at hp
  rcases hp with hp | ⟨-, hstop⟩
  · obtain ⟨d, hd, hdp⟩ := List.exists_of_findSome?_eq_some hp
    obtain ⟨i, hi⟩ := List.mem_iff_getElem?.mp hd
    rw [List.getElem?_drop, Array.getElem?_toList] at hi
    exact lt_of_parseScript_offset (by omega) hc hi ho hdp
  · exact lt_of_parseScript_truncatedAt hc ho hstop

theorem pending_or_lt {j k : Nat} {m : Command} (hjk : j < k)
    (hm : (parseScript .standard scene id bytes).1.commands[j]? = some m) (hadded : m.offset = none) :
    Pending ((parseScript .standard scene id bytes).1.commands.toList.take k) m ∨
      ∃ o, (parseScript .standard scene id bytes).1.placeOf? j = some o ∧
        ∀ p, (parseScript .standard scene id bytes).1.placeOf? k = some p → o < p := by
  generalize hscript : (parseScript .standard scene id bytes).1 = script at hm ⊢
  have hm' : (script.commands.toList.take k)[j]? = some m := by
    rw [List.getElem?_take_of_lt hjk, Array.getElem?_toList, hm]
  obtain ⟨hlt, rfl⟩ := List.getElem?_eq_some_iff.mp hm'
  generalize htake : script.commands.toList.take k = front at hlt hm' hadded ⊢
  have hdrop : script.commands.toList.drop j =
      front[j] :: (front.drop (j + 1) ++ script.commands.toList.drop k) := by
    conv_lhs => rw [← List.take_append_drop k script.commands.toList]
    rw [htake, List.drop_append_of_le_length (Nat.le_of_lt hlt), ← List.cons_append,
      List.getElem_cons_drop]
  cases hread : (front.drop (j + 1)).findSome? Command.offset with
  | none =>
      rw [List.findSome?_eq_none_iff] at hread
      refine .inl ⟨front.take j, front.drop (j + 1), ?_, ?_⟩
      · rw [List.getElem_cons_drop, List.take_append_drop]
      · rw [List.forall_mem_cons]
        exact ⟨Option.isNone_iff_eq_none.mpr hadded,
          fun d hd => Option.isNone_iff_eq_none.mpr (hread d hd)⟩
  | some o =>
      refine .inr ⟨o, ?_, fun p hp => ?_⟩
      · rw [ParsedScript.placeOf?, hdrop, placeOf_cons, hadded, Option.none_or, placeOf,
          List.findSome?_append, hread]
        rfl
      · obtain ⟨d, hd, ho⟩ := List.exists_of_findSome?_eq_some hread
        obtain ⟨i, hi⟩ := List.mem_iff_getElem?.mp hd
        rw [List.getElem?_drop, ← htake, List.getElem?_take, Option.ite_none_right_eq_some] at hi
        subst hscript
        exact lt_placeOf (by rw [← Array.getElem?_toList]; exact hi.2) ho hi.1 hp

theorem pending_of_placeOf_eq {j k : Nat} {m : Command} (hjk : j < k)
    (hm : (parseScript .standard scene id bytes).1.commands[j]? = some m) (hadded : m.offset = none)
    (heq : (parseScript .standard scene id bytes).1.placeOf? j =
      (parseScript .standard scene id bytes).1.placeOf? k) :
    Pending ((parseScript .standard scene id bytes).1.commands.toList.take k) m := by
  rcases pending_or_lt hjk hm hadded with h | ⟨o, ho, hlt⟩
  · exact h
  · exact absurd (hlt o (heq.symm.trans ho)) (Nat.lt_irrefl o)

end

/-- The commands of a life script close their blocks, and stand in order. -/
theorem closes_parseScript (scene actor : Nat) (bytes : List UInt8) :
    let script := (parseScript .standard scene (.life actor) bytes).1
    (∀ kind, ∃ ends, Closes kind script.truncatedAt script.commands.toList ends) ∧
      EndsInOrder script.commands.toList := by
  obtain ⟨s, stop, hrun, he⟩ := parseScript_eq .standard scene (.life actor) bytes
  have hnone : ∀ m, ¬ Pending (ParseState.start .life).commands.toList m := by
    rintro m ⟨u, v, hsplit, -⟩
    simp [ParseState.start] at hsplit
  have hjustified : s.Justified (stop.map Prod.fst) :=
    hrun.justified ParseState.justified_start hnone
  rw [he]
  exact ⟨fun kind => ⟨s.ends kind, hjustified.closes kind⟩, hjustified.order⟩

theorem placeOf?_eq {script : ParsedScript} {k : Nat} {c : Command}
    (hc : script.commands[k]? = some c) : script.placeOf? k =
      c.offset.or (placeOf script.truncatedAt (script.commands.toList.drop (k + 1))) := by
  rw [← Array.getElem?_toList] at hc
  obtain ⟨hlt, rfl⟩ := List.getElem?_eq_some_iff.mp hc
  rw [ParsedScript.placeOf?, List.drop_eq_getElem_cons hlt, placeOf_cons]

/-- **Added ends of blocks are justified.** In every beginning of the commands of a life script there
are no more added ENDIFs than conditionals and no more added END_SWITCHes than SWITCHes. An added end
stands where an earlier command of its kind of block leads. Where both are added, ENDIFs come first,
and what is read behind an added END_SWITCH is neither a label nor an END_SWITCH. -/
theorem parseScript_justified (scene actor : Nat) (bytes : List UInt8) :
    let script := (parseScript .standard scene (.life actor) bytes).1
    (∀ kind u, u <+: script.commands.toList →
      u.countP (Command.closes kind) ≤ u.countP (Command.opens kind)) ∧
    (∀ (kind : BlockKind) (k : Nat) (m : Command), script.commands[k]? = some m →
      m.closes kind = true → ∃ p, script.placeOf? k = some p ∧
        ∃ j c, j < k ∧ script.commands[j]? = some c ∧ c.LeadsTo kind p) ∧
    (∀ (i j : Nat) (m m' : Command), script.commands[i]? = some m → script.commands[j]? = some m' →
      m.closes .conditional = true → m'.closes .switch = true →
      script.placeOf? i = script.placeOf? j → i < j) ∧
    ∀ (k j p : Nat) (m c : Command), script.commands[k]? = some m → m.closes .switch = true →
      script.placeOf? k = some p → script.commands[j]? = some c → c.offset = some p →
      c.opcode.operation ∉ [.caseArm, .orCaseArm, .defaultArm, .endSwitch] := by
  intro script
  obtain ⟨hcloses, horder⟩ := closes_parseScript scene actor bytes
  have hsplit : ∀ {k : Nat} {c : Command}, script.commands[k]? = some c →
      script.commands.toList = script.commands.toList.take k ++
        c :: script.commands.toList.drop (k + 1) :=
    fun hc => split_of_getElem? (Array.getElem?_toList.trans hc)
  have hadded : ∀ {kind : BlockKind} {m : Command}, m.closes kind = true → m.offset = none :=
    fun h => (Command.isMarker_iff.mp h).1
  refine ⟨?_, ?_, ?_, ?_⟩
  · intro kind u hu
    obtain ⟨ends, h⟩ := hcloses kind
    exact h.prefixes u hu
  · intro kind k m hm hclose
    obtain ⟨ends, h⟩ := hcloses kind
    obtain ⟨p, hp, c, hc, hleads⟩ := h.placed _ m _ (hsplit hm) hclose
    obtain ⟨j, hj⟩ := List.mem_iff_getElem?.mp hc
    rw [List.getElem?_take, Option.ite_none_right_eq_some, Array.getElem?_toList] at hj
    refine ⟨p, ?_, j, c, hj.1, hj.2, hleads⟩
    rw [placeOf?_eq hm, hadded hclose, Option.none_or, hp]
  · intro i j m m' hm hm' hif hswitch hplace
    rcases Nat.lt_trichotomy i j with hlt | rfl | hlt
    · exact hlt
    · obtain rfl := Option.some.inj (hm.symm.trans hm')
      have hop := (Command.isMarker_iff.mp hif).2.symm.trans (Command.isMarker_iff.mp hswitch).2
      exact absurd hop (by decide)
    · have hpending := pending_of_placeOf_eq hlt hm' (hadded hswitch) hplace.symm
      have hif' := (horder _ m _ (hsplit hm) m' hpending).endIf hif
      have hop := (Command.isMarker_iff.mp hif').2.symm.trans (Command.isMarker_iff.mp hswitch).2
      exact absurd hop (by decide)
  · intro k j p m c hm hswitch hp hc ho hlabel
    have hplace : script.placeOf? j = some p := by rw [placeOf?_eq hc, ho, Option.some_or]
    rcases Nat.lt_trichotomy j k with hlt | rfl | hlt
    · exact absurd (lt_placeOf hc ho hlt hp) (Nat.lt_irrefl p)
    · obtain rfl := Option.some.inj (hm.symm.trans hc)
      rw [hadded hswitch] at ho
      cases ho
    · have hpending := pending_of_placeOf_eq hlt hm (hadded hswitch) (hp.trans hplace.symm)
      have hread : c.isImplicit = false := Command.isImplicit_eq_false ho
      have hcase : c.opcode.operation.isCaseLabel = true := by
        simp only [List.mem_cons, List.not_mem_nil, or_false] at hlabel
        rcases hlabel with hop | hop | hop | hop <;> rw [hop] <;> rfl
      have hno := (horder _ c _ (hsplit hc) m hpending).label hread hcase
      exact absurd (hno.symm.trans hswitch) (by decide)

/-- A conditional and the switch in it end at the same place. -/
example : (parseScript .standard 0 (.life 0)
    [0x0C, 3, 0, 1, 15, 0, 0x71, 3, 0x73, 15, 0, 0, 1, 0x0A, 3, 0]).1.commands.toList.map
      Command.name =
    ["BEHAVIOUR", "IF", "SWITCH", "CASE", "PALETTE", "ENDIF", "END_SWITCH", "END"] := by
  decide +kernel

end SceneScript
