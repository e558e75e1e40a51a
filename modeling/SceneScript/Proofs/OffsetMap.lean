import SceneScript.Proofs.Parsing

/-! # The offset map

A parsed script has a map from byte offsets to indices of commands. It names exactly the commands
that were read, in their order.

* `ParseState.InOrder c s`: what the loop has noted when it comes to the cursor `c`. Every offset lies
  behind the cursor and leads to a command that is there, and a later offset to a later one. The index
  noted for the command under the cursor is the number of commands so far, so the order is kept.
* `lt_of_parseScript_offset`: offsets grow with the index of the command.
* `parseScript_offsets_exact`: the map and the commands told against each other. An offset may lead to
  the start of a behavior that was added in front of its command. -/

namespace SceneScript

/-! ### Offsets in the order of their commands -/

/-- A later offset leads to a later command. -/
def OffsetsRise (offsets : IndexMap Nat) : Prop :=
  ∀ o p i j : Nat, offsets[o]? = some i → offsets[p]? = some j → o < p → i < j

/-- The offsets noted so far lie behind the cursor and lead to commands, in their order. -/
structure ParseState.InOrder (c : Cursor) (s : ParseState) : Prop where
  behind : ∀ o index, s.offsets[o]? = some index → o < c.position ∧ index < s.commands.size
  rise : OffsetsRise s.offsets

section
variable {catalog : Catalog} {kind : ScriptKind}

/-- The command under the cursor is noted behind all commands that are there. -/
theorem ParseState.size_le_entry (s : ParseState) (catalog : Catalog) (kind : ScriptKind)
    (c : Cursor) : s.commands.size ≤ s.entry catalog kind c := by
  obtain ⟨ends, hends, -⟩ := s.closeBlocks_commands catalog kind c
  have hlength := congrArg List.length hends
  rw [List.length_append, Array.length_toList, Array.length_toList] at hlength
  rw [ParseState.entry]
  omega

theorem ParseState.entry_le_size_ready (s : ParseState) (catalog : Catalog) (kind : ScriptKind)
    (c : Cursor) : s.entry catalog kind c ≤ (s.ready catalog kind c).commands.size := by
  rcases s.ready_size catalog kind c with h | ⟨h, -⟩ <;> omega

/-- What is noted when a command is read: the offset under the cursor, or one noted before. -/
theorem ParseState.ready_offsets_cases {s : ParseState} {c : Cursor} {o index : Nat}
    (h : (s.ready catalog kind c).offsets[o]? = some index) :
    o = c.position ∧ index = s.entry catalog kind c ∨ s.offsets[o]? = some index := by
  rw [ParseState.ready_offsets, Std.TreeMap.getElem?_insert] at h
  split at h
  · next he => exact .inl ⟨(compare_eq_iff_eq.mp he).symm, (Option.some.inj h).symm⟩
  · exact .inr h

/-- Noting the offset under the cursor keeps the order. -/
theorem ParseState.InOrder.rise_ready {c : Cursor} {s : ParseState} (h : s.InOrder c) :
    OffsetsRise (s.ready catalog kind c).offsets := by
  intro o p i j ho hp hlt
  have hsize := s.size_le_entry catalog kind c
  rcases ParseState.ready_offsets_cases ho with ⟨rfl, rfl⟩ | ho
  · rcases ParseState.ready_offsets_cases hp with ⟨rfl, -⟩ | hp
    · omega
    · have := (h.behind p j hp).1
      omega
  · have hi := (h.behind o i ho).2
    rcases ParseState.ready_offsets_cases hp with ⟨-, rfl⟩ | hp
    · omega
    · exact h.rise o p i j ho hp hlt

theorem ParseState.InOrder.add {c after : Cursor} {s : ParseState} (h : s.InOrder c)
    (hpos : c.position < after.position) (command : Command) :
    ((s.ready catalog kind c).add command (s.entry catalog kind c)).InOrder after := by
  refine ⟨?_, ?_⟩
  · intro o index ho
    rw [ParseState.add_offsets] at ho
    rw [ParseState.add_commands, Array.size_push]
    have hle := s.size_le_entry catalog kind c
    have hle' := s.entry_le_size_ready catalog kind c
    rcases ParseState.ready_offsets_cases ho with ⟨rfl, rfl⟩ | ho
    · exact ⟨hpos, by omega⟩
    · have := h.behind o index ho
      exact ⟨by omega, by omega⟩
  · rw [ParseState.add_offsets]
    exact h.rise_ready

theorem position_lt_of_readCommand {enclosing : Option Predicate} {start : Nat} {c after : Cursor}
    {command : Command}
    (h : (readCommand catalog kind enclosing start).run c = .ok (command, after)) :
    c.position < after.position := by
  obtain ⟨-, -, hp⟩ := readCommand_eq_ok_iff.mp h
  have := command.bytes_length_pos
  rw [hp.position]
  omega

theorem ParseRun.offsetsRise {c : Cursor} {s s' : ParseState} {stop : Option (Nat × ParseError)}
    (h : ParseRun catalog kind c s s' stop) (hs : s.InOrder c) : OffsetsRise s'.offsets := by
  induction h with
  | done => exact hs.rise
  | failed => exact hs.rise_ready
  | more _ hr _ ih => exact ih (hs.add (position_lt_of_readCommand hr) _)

theorem ParseState.inOrder_start (bytes : List UInt8) :
    (ParseState.start kind).InOrder (.start bytes) := by
  constructor
  · intro o index ho
    simp [ParseState.start] at ho
  · intro o p i j ho
    simp [ParseState.start] at ho

end

/-! ### Offsets of the commands themselves -/

/-- Commands with places and an index each: the later one has the greater offset. -/
theorem lt_of_placed_explicit {start : Nat} {commands : List Command}
    (h : PlacedFrom start (explicit commands)) {i j m n : Nat} {c d : Command} (hij : i < j)
    (hc : commands[i]? = some c) (hd : commands[j]? = some d) (hm : c.offset = some m)
    (hn : d.offset = some n) : m < n := by
  have hsplit := split_of_getElem? hd
  have hbefore : c ∈ explicit (commands.take j) := by
    rw [explicit, List.mem_filter]
    refine ⟨List.mem_iff_getElem?.mpr ⟨i, by rw [List.getElem?_take_of_lt hij, hc]⟩, ?_⟩
    simp [Command.isImplicit_eq_false hm]
  have hexplicit : explicit commands =
      explicit (commands.take j) ++ d :: explicit (commands.drop (j + 1)) := by
    conv_lhs => rw [hsplit]
    rw [explicit_append, ← List.singleton_append, explicit_append, explicit_singleton hn,
      List.singleton_append]
  rw [hexplicit] at h
  exact h.offset_lt hbefore hm hn

/-- Offsets grow with the index of the command. -/
theorem lt_of_parseScript_offset {catalog : Catalog} {scene : Nat} {id : ScriptId}
    {bytes : List UInt8} {i j m n : Nat} {c d : Command} (hij : i < j)
    (hc : (parseScript catalog scene id bytes).1.commands[i]? = some c)
    (hd : (parseScript catalog scene id bytes).1.commands[j]? = some d)
    (hm : c.offset = some m) (hn : d.offset = some n) : m < n := by
  obtain ⟨s, stop, hrun, he⟩ := parseScript_eq catalog scene id bytes
  obtain ⟨commands, -, hread, hplaced, -⟩ := hrun.reads
  have hread : explicit s.commands.toList = commands := by
    simpa [ParseState.start, explicit] using hread
  rw [he] at hc hd
  rw [← Array.getElem?_toList] at hc hd
  rw [← hread] at hplaced
  exact lt_of_placed_explicit hplaced hij hc hd hm hn

/-- Commands were read before the place where reading stopped. -/
theorem lt_of_parseScript_truncatedAt {catalog : Catalog} {scene : Nat} {id : ScriptId}
    {bytes : List UInt8} {k m n : Nat} {c : Command}
    (hc : (parseScript catalog scene id bytes).1.commands[k]? = some c) (hm : c.offset = some m)
    (hn : (parseScript catalog scene id bytes).1.truncatedAt = some n) : m < n := by
  obtain ⟨s, stop, hrun, he⟩ := parseScript_eq catalog scene id bytes
  obtain ⟨commands, -, hread, hplaced, -, -, hstop⟩ := hrun.reads
  have hread : explicit s.commands.toList = commands := by
    simpa [ParseState.start, explicit] using hread
  rw [he] at hc hn
  obtain ⟨⟨o, e⟩, hstopped, rfl⟩ := Option.map_eq_some_iff.mp hn
  have hmem : c ∈ commands := by
    rw [← hread, explicit, List.mem_filter, Array.mem_toList_iff]
    exact ⟨Array.mem_of_getElem? hc, by simp [Command.isImplicit_eq_false hm]⟩
  obtain ⟨before, after, rfl⟩ := List.append_of_mem hmem
  have hplace := hplaced before c after rfl
  rw [hm, Option.some.injEq] at hplace
  have hpos := c.bytes_length_pos
  have ho := hstop o e hstopped
  rw [List.flatMap_append, List.flatMap_cons, List.length_append, List.length_append] at ho
  dsimp only
  omega

/-! ### The map of a parsed script -/

theorem offsetsRise_parseScript (catalog : Catalog) (scene : Nat) (id : ScriptId)
    (bytes : List UInt8) : OffsetsRise (parseScript catalog scene id bytes).1.offsets := by
  obtain ⟨s, stop, hrun, he⟩ := parseScript_eq catalog scene id bytes
  have hrise : OffsetsRise s.offsets := hrun.offsetsRise (ParseState.inOrder_start bytes)
  -- Dropping offsets without a command leaves the order of the others alone.
  have hkept : ∀ o index : Nat, (s.script id (stop.map Prod.fst)).offsets[o]? = some index →
      s.offsets[o]? = some index := by
    intro o index ho
    rw [ParseState.script, Std.TreeMap.getElem?_filter'] at ho
    exact (Option.filter_eq_some_iff.mp ho).1
  rw [he]
  intro o p i j ho hp hlt
  exact hrise o p i j (hkept o i ho) (hkept p j hp) hlt

/-- **The offset map names exactly the commands that were read.** The offset of every command is in
the map. Every offset of the map but the one where reading failed leads to the command read there, or
to the start of a behavior right before it. Offsets grow with the index of the command, and the map
sends later offsets to later commands. -/
theorem parseScript_offsets_exact (catalog : Catalog) (scene : Nat) (id : ScriptId)
    (bytes : List UInt8) :
    let script := (parseScript catalog scene id bytes).1
    (∀ command ∈ script.commands, ∀ o, command.offset = some o → o ∈ script.offsets) ∧
    (∀ o index : Nat, script.offsets[o]? = some index → script.truncatedAt ≠ some o →
      (∃ command, script.commands[index]? = some command ∧ command.offset = some o) ∨
      ∃ (n : Int) (command : Command), script.commands[index]? =
          some (.implicit (catalog.marker .behaviour) [⟨.label, .number n⟩]) ∧
        script.commands[index + 1]? = some command ∧ command.offset = some o) ∧
    (∀ (i j m n : Nat) (c d : Command), i < j → script.commands[i]? = some c →
      script.commands[j]? = some d → c.offset = some m → d.offset = some n → m < n) ∧
    ∀ o p i j : Nat, script.offsets[o]? = some i → script.offsets[p]? = some j → o < p → i < j := by
  refine ⟨?_, ?_, ?_, offsetsRise_parseScript catalog scene id bytes⟩
  · intro command hmem o ho
    obtain ⟨index, hindex⟩ := Array.mem_iff_getElem?.mp hmem
    rw [Std.TreeMap.mem_iff_isSome_getElem?, Option.isSome_iff_exists]
    rcases parseScript_indexOf? hindex ho with h | ⟨entry, n, -, h, -⟩
    · exact ⟨index, h⟩
    · exact ⟨entry, h⟩
  · intro o index hindex hstop
    rcases leads_of_indexOf? hindex with h | ⟨n, hmarker, ⟨command, hc, ho⟩ | ⟨-, h⟩⟩
    · exact .inl h
    · exact .inr ⟨n, command, hmarker, hc, ho⟩
    · exact absurd h hstop
  · intro i j m n c d hij hc hd hm hn
    exact lt_of_parseScript_offset hij hc hd hm hn

end SceneScript
