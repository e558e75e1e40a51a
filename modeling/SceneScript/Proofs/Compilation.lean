import SceneScript.Proofs.Parsing
import SceneScript.Scene.Basic

/-! # Compiled scenes, command by command

Compiling a scene treats every command by itself: instruction `k` of a program is command `k` of
the parsed script, linked against the parsed scripts of the scene and bound against its layout
(`getElem?_instructions`). So a fact about the instructions of a compiled scene is a fact about
`SceneSource.instruction`, and a diagnostic of the scene is one of parsing a script, or of linking
or binding one command of it (`mem_findings_iff`). -/

namespace SceneScript

/-- The bytes of an actor's script of a kind. -/
def ActorSource.bytes (a : ActorSource) : ScriptKind → List UInt8
  | .life => a.life
  | .move => a.moves

namespace SceneSource

variable (catalog : Catalog) (source : SceneSource)

/-- The bytes of a script of the scene. -/
def bytes? (id : ScriptId) : Option (List UInt8) :=
  source.actors[id.actor]?.map fun a => a.bytes id.kind

/-- The parsed scripts of all actors. -/
def parsed : Array ParsedActor := (parseActors catalog source.index source.actors).1

/-- A parsed script of the scene. -/
def parsed? (id : ScriptId) : Option ParsedScript :=
  (source.parsed catalog)[id.actor]?.map fun a => a.script id.kind

/-- The command linked against the scene. -/
def linked (id : ScriptId) (c : Command) : Command :=
  (Link.command (source.parsed catalog) id c).1

/-- The instruction of a command of the scene, at its index and in its part. -/
def instruction (id : ScriptId) (index : Nat) (part : Option Int) (c : Command) : Instruction :=
  (Compile.command source.layout index part (source.linked catalog id c)).1

/-- All diagnostics of compiling the scene, in order. -/
def findings : List Diagnostic :=
  let parsed := parseActors catalog source.index source.actors
  let linked := linkScene source.index parsed.1
  let bound := linked.1.map (Compile.actor source.index source.layout)
  parsed.2 ++ linked.2 ++ bound.toList.flatMap Prod.snd

theorem compileScene_diagnostics :
    (compileScene catalog source).diagnostics =
      DiagnosticLog.empty.pushAll (source.findings catalog) := rfl

/-! ### Parsed scripts -/

theorem getElem?_parsed (a : Nat) :
    (source.parsed catalog)[a]? = source.actors[a]?.map fun s =>
      (parseActor catalog source.index a s).1 := by
  simp only [parsed, parseActors, List.getElem?_toArray, List.getElem?_map, List.getElem?_zipIdx]
  cases source.actors[a]? <;> simp

theorem size_parsed : (source.parsed catalog).size = source.actors.length := by
  simp [parsed, parseActors]

theorem parsed?_eq (id : ScriptId) :
    source.parsed? catalog id =
      (source.bytes? id).map fun bytes => (parseScript catalog source.index id bytes).1 := by
  obtain ⟨a, kind⟩ := id
  unfold parsed? bytes?
  rw [getElem?_parsed]
  cases source.actors[a]? with
  | none => rfl
  | some s => cases kind <;> rfl

theorem parsed?_id {id : ScriptId} {s : ParsedScript} (h : source.parsed? catalog id = some s) :
    s.id = id := by
  rw [parsed?_eq, Option.map_eq_some_iff] at h
  obtain ⟨bytes, -, rfl⟩ := h
  exact parseScript_id catalog source.index id bytes

end SceneSource

/-! ### Instructions of a script -/

namespace Compile

/-- The part of an instruction: that of the last start at or before it, behind the part in force
before index `first`. -/
def partFrom (starts : IndexMap Int) (part : Option Int) (first : Nat) : Nat → Option Int
  | 0 => starts[first]?.or part
  | k + 1 => partFrom starts (starts[first]?.or part) (first + 1) k

theorem commands_toList (layout : Layout) (starts : IndexMap Int) (first : Nat)
    (part : Option Int) (cs : List Command) (bound : Array (Instruction × List BindIssue)) :
    (commands layout starts first part cs bound).toList = bound.toList ++
      cs.mapIdx fun k c => command layout (first + k) (partFrom starts part first k) c := by
  induction cs generalizing first part bound with
  | nil => simp [commands]
  | cons c cs ih =>
      rw [commands, ih, Array.toList_push, List.mapIdx_cons, List.append_assoc,
        List.singleton_append]
      simp only [partFrom, Nat.add_zero, Nat.add_assoc, Nat.add_comm 1]

/-- The commands of a script are bound one by one. -/
theorem commands_script (layout : Layout) (s : LinkedScript) :
    commands layout (parts s) 0 none s.commands.toList #[] =
      s.commands.mapIdx fun k c => command layout k (partFrom (parts s) none 0 k) c := by
  apply Array.toList_inj.mp
  rw [commands_toList, List.nil_append, Array.toList_mapIdx]
  simp only [Nat.zero_add]

/-- Instruction `k` of a compiled script is command `k`, bound. -/
theorem getElem?_script_instructions (scene : Nat) (layout : Layout) (s : LinkedScript) (k : Nat) :
    (script scene layout s).1.instructions[k]? =
      s.commands[k]?.map fun c => (command layout k (partFrom (parts s) none 0 k) c).1 := by
  simp only [script, commands_script, Array.getElem?_map, Array.getElem?_mapIdx, Option.map_map,
    Function.comp_def]

theorem size_script_instructions (scene : Nat) (layout : Layout) (s : LinkedScript) :
    (script scene layout s).1.instructions.size = s.commands.size := by
  simp only [script, commands_script, Array.size_map, Array.size_mapIdx]

/-- The findings of binding a script are those of its commands. -/
theorem mem_script_findings_iff (scene : Nat) (layout : Layout) (s : LinkedScript)
    (d : Diagnostic) :
    d ∈ (script scene layout s).2 ↔ ∃ k c, s.commands[k]? = some c ∧
      ∃ issue ∈ (command layout k (partFrom (parts s) none 0 k) c).2,
        d = issue.diagnostic scene s.id k := by
  simp only [script, commands_script, List.mem_flatMap, Array.mem_toList_iff, Array.mem_iff_getElem?,
    Array.getElem?_mapIdx, Option.map_eq_some_iff, List.mem_map]
  constructor
  · rintro ⟨_, ⟨k, c, hc, rfl⟩, issue, hi, rfl⟩
    exact ⟨k, c, hc, issue, hi, rfl⟩
  · rintro ⟨k, c, hc, issue, hi, rfl⟩
    exact ⟨_, ⟨k, c, hc, rfl⟩, issue, hi, rfl⟩

end Compile

namespace Link

theorem getElem?_script_commands (actors : Array ParsedActor) (scene : Nat) (s : ParsedScript)
    (k : Nat) :
    (script actors scene s).1.commands[k]? =
      s.commands[k]?.map fun c => (command actors s.id c).1 := by
  simp [script, Function.comp_def]

/-- The findings of linking a script are those of its commands. -/
theorem mem_script_findings_iff (actors : Array ParsedActor) (scene : Nat) (s : ParsedScript)
    (d : Diagnostic) :
    d ∈ (script actors scene s).2 ↔ ∃ k c, s.commands[k]? = some c ∧
      ∃ issue ∈ (command actors s.id c).2, d = issue.diagnostic scene s.id k := by
  simp only [script, List.mem_flatMap, List.mem_map]
  constructor
  · rintro ⟨⟨r, k⟩, hr, issue, hi, rfl⟩
    rw [List.mem_zipIdx_iff_getElem?] at hr
    simp only [Array.getElem?_toList, Array.getElem?_map, Option.map_eq_some_iff] at hr
    obtain ⟨c, hc, rfl⟩ := hr
    exact ⟨k, c, hc, issue, hi, rfl⟩
  · rintro ⟨k, c, hc, issue, hi, rfl⟩
    refine ⟨(command actors s.id c, k), ?_, issue, hi, rfl⟩
    rw [List.mem_zipIdx_iff_getElem?]
    simp only [Array.getElem?_toList, Array.getElem?_map, hc, Option.map_some]

end Link

/-! ### Programs of a scene -/

/-- The part that command `k` of a script belongs to. -/
def ParsedScript.part (s : ParsedScript) (k : Nat) : Option Int :=
  Compile.partFrom (match s.id.kind with
    | .life => s.behaviors
    | .move => s.tracks) none 0 k

namespace SceneSource

variable (catalog : Catalog) (source : SceneSource)

/-- The program of a parsed script of the scene. -/
def program (s : ParsedScript) : Program :=
  (Compile.script source.index source.layout
    (Link.script (source.parsed catalog) source.index s).1).1

theorem getElem?_compileScene_actors (a : Nat) :
    (compileScene catalog source).actors[a]? = (source.parsed catalog)[a]?.map fun p =>
      let programs := ⟨source.program catalog p.life, source.program catalog p.moves⟩
      ⟨programs, programs.initialState⟩ := by
  simp only [compileScene, linkScene, Array.getElem?_map, Option.map_map]
  rfl

theorem size_compileScene_actors :
    (compileScene catalog source).actors.size = source.actors.length := by
  rw [← size_parsed catalog source]
  simp [compileScene, linkScene, parsed]

/-- A program of a compiled scene is that of the parsed script. -/
theorem program?_ofCompiled (config : Config) (id : ScriptId) :
    (Scene.ofCompiled (compileScene catalog source) config).program? id =
      (source.parsed? catalog id).map (source.program catalog) := by
  obtain ⟨a, kind⟩ := id
  simp only [Scene.program?, Scene.ofCompiled, Array.getElem?_map, getElem?_compileScene_actors,
    parsed?, Option.map_map]
  cases kind <;> rfl

/-- Instruction `k` of a program is command `k` of the parsed script, linked and bound. -/
theorem getElem?_instructions {id : ScriptId} {s : ParsedScript}
    (h : source.parsed? catalog id = some s) (k : Nat) :
    (source.program catalog s).instructions[k]? =
      s.commands[k]?.map (source.instruction catalog id k (s.part k)) := by
  rw [program, Compile.getElem?_script_instructions, Link.getElem?_script_commands,
    parsed?_id catalog source h, Option.map_map]
  rfl

theorem size_instructions (s : ParsedScript) :
    (source.program catalog s).instructions.size = s.commands.size := by
  rw [program, Compile.size_script_instructions]
  simp [Link.script]

/-! ### Diagnostics of a scene -/

/-- Whether a diagnostic comes from parsing a script of the scene, from linking one of its commands
or from binding one. -/
def FoundIn (id : ScriptId) (bytes : List UInt8) (d : Diagnostic) : Prop :=
  let parsed := parseScript catalog source.index id bytes
  d ∈ parsed.2 ∨ ∃ k c, parsed.1.commands[k]? = some c ∧
    ((∃ issue ∈ (Link.command (source.parsed catalog) id c).2,
      d = issue.diagnostic source.index id k) ∨
    ∃ issue ∈ (Compile.command source.layout k (parsed.1.part k) (source.linked catalog id c)).2,
      d = issue.diagnostic source.index id k)

theorem mem_parseActors_findings_iff (d : Diagnostic) :
    d ∈ (parseActors catalog source.index source.actors).2 ↔
      ∃ id bytes, source.bytes? id = some bytes ∧
        d ∈ (parseScript catalog source.index id bytes).2 := by
  simp only [parseActors, List.mem_flatMap, List.mem_map]
  constructor
  · rintro ⟨_, ⟨⟨s, a⟩, hs, rfl⟩, hd⟩
    rw [List.mem_zipIdx_iff_getElem?] at hs
    rcases List.mem_append.mp hd with hd | hd
    · exact ⟨.life a, s.life, by simp [bytes?, ScriptId.life, hs, ActorSource.bytes], hd⟩
    · exact ⟨.move a, s.moves, by simp [bytes?, ScriptId.move, hs, ActorSource.bytes], hd⟩
  · rintro ⟨⟨a, kind⟩, bytes, hb, hd⟩
    obtain ⟨s, hs, rfl⟩ := Option.map_eq_some_iff.mp hb
    refine ⟨_, ⟨(s, a), List.mem_zipIdx_iff_getElem?.mpr hs, rfl⟩, ?_⟩
    cases kind
    · exact List.mem_append_left _ hd
    · exact List.mem_append_right _ hd

theorem mem_linkScene_findings_iff (d : Diagnostic) :
    d ∈ (linkScene source.index (source.parsed catalog)).2 ↔
      ∃ id s, source.parsed? catalog id = some s ∧
        d ∈ (Link.script (source.parsed catalog) source.index s).2 := by
  simp only [linkScene, List.mem_flatMap, Array.mem_toList_iff, Array.mem_map]
  constructor
  · rintro ⟨_, ⟨p, hp, rfl⟩, hd⟩
    obtain ⟨a, ha⟩ := Array.mem_iff_getElem?.mp hp
    rcases List.mem_append.mp hd with hd | hd
    · exact ⟨.life a, p.life, by simp [parsed?, ScriptId.life, ha, ParsedActor.script], hd⟩
    · exact ⟨.move a, p.moves, by simp [parsed?, ScriptId.move, ha, ParsedActor.script], hd⟩
  · rintro ⟨⟨a, kind⟩, s, hs, hd⟩
    obtain ⟨p, hp, rfl⟩ := Option.map_eq_some_iff.mp hs
    refine ⟨_, ⟨p, Array.mem_of_getElem? hp, rfl⟩, ?_⟩
    cases kind
    · exact List.mem_append_left _ hd
    · exact List.mem_append_right _ hd

theorem mem_bound_findings_iff (d : Diagnostic) :
    d ∈ ((linkScene source.index (source.parsed catalog)).1.map
        (Compile.actor source.index source.layout)).toList.flatMap Prod.snd ↔
      ∃ id s, source.parsed? catalog id = some s ∧
        d ∈ (Compile.script source.index source.layout
          (Link.script (source.parsed catalog) source.index s).1).2 := by
  simp only [linkScene, List.mem_flatMap, Array.mem_toList_iff, Array.mem_map]
  constructor
  · rintro ⟨_, ⟨_, ⟨_, ⟨p, hp, rfl⟩, rfl⟩, rfl⟩, hd⟩
    obtain ⟨a, ha⟩ := Array.mem_iff_getElem?.mp hp
    rcases List.mem_append.mp hd with hd | hd
    · exact ⟨.life a, p.life, by simp [parsed?, ScriptId.life, ha, ParsedActor.script], hd⟩
    · exact ⟨.move a, p.moves, by simp [parsed?, ScriptId.move, ha, ParsedActor.script], hd⟩
  · rintro ⟨⟨a, kind⟩, s, hs, hd⟩
    obtain ⟨p, hp, rfl⟩ := Option.map_eq_some_iff.mp hs
    refine ⟨_, ⟨_, ⟨_, ⟨p, Array.mem_of_getElem? hp, rfl⟩, rfl⟩, rfl⟩, ?_⟩
    cases kind
    · exact List.mem_append_left _ hd
    · exact List.mem_append_right _ hd

/-- **The diagnostics of a scene** are those of its scripts and of their commands. -/
theorem mem_findings_iff (d : Diagnostic) :
    d ∈ source.findings catalog ↔
      ∃ id bytes, source.bytes? id = some bytes ∧ source.FoundIn catalog id bytes d := by
  have hparsed : ∀ id s, source.parsed? catalog id = some s ↔
      ∃ bytes, source.bytes? id = some bytes ∧ (parseScript catalog source.index id bytes).1 = s := by
    intro id s
    rw [parsed?_eq, Option.map_eq_some_iff]
  have hfindings : d ∈ source.findings catalog ↔
      (d ∈ (parseActors catalog source.index source.actors).2 ∨
        d ∈ (linkScene source.index (source.parsed catalog)).2) ∨
        d ∈ ((linkScene source.index (source.parsed catalog)).1.map
          (Compile.actor source.index source.layout)).toList.flatMap Prod.snd := by
    rw [findings, List.mem_append, List.mem_append]
    rfl
  rw [hfindings, mem_parseActors_findings_iff, mem_linkScene_findings_iff, mem_bound_findings_iff]
  constructor
  · rintro ((⟨id, bytes, hb, hd⟩ | ⟨id, s, hs, hd⟩) | ⟨id, s, hs, hd⟩)
    · exact ⟨id, bytes, hb, .inl hd⟩
    · obtain ⟨bytes, hb, rfl⟩ := (hparsed id s).mp hs
      obtain ⟨k, c, hc, hissue⟩ := (Link.mem_script_findings_iff _ _ _ _).mp hd
      rw [parsed?_id catalog source hs] at hissue
      exact ⟨id, bytes, hb, .inr ⟨k, c, hc, .inl hissue⟩⟩
    · obtain ⟨bytes, hb, rfl⟩ := (hparsed id s).mp hs
      obtain ⟨k, c, hc, hissue⟩ := (Compile.mem_script_findings_iff _ _ _ _).mp hd
      rw [Link.getElem?_script_commands, Option.map_eq_some_iff] at hc
      obtain ⟨c, hc, rfl⟩ := hc
      have hid : (Link.script (source.parsed catalog) source.index
          (parseScript catalog source.index id bytes).1).1.id = id :=
        parsed?_id catalog source hs
      rw [hid] at hissue
      rw [parsed?_id catalog source hs] at hissue
      exact ⟨id, bytes, hb, .inr ⟨k, c, hc, .inr hissue⟩⟩
  · rintro ⟨id, bytes, hb, hd | ⟨k, c, hc, hd | hd⟩⟩
    · exact .inl (.inl ⟨id, bytes, hb, hd⟩)
    · have hs := (hparsed id _).mpr ⟨bytes, hb, rfl⟩
      refine .inl (.inr ⟨id, _, hs, (Link.mem_script_findings_iff _ _ _ _).mpr ⟨k, c, hc, ?_⟩⟩)
      rw [parsed?_id catalog source hs]
      exact hd
    · have hs := (hparsed id _).mpr ⟨bytes, hb, rfl⟩
      refine .inr ⟨id, _, hs, (Compile.mem_script_findings_iff _ _ _ _).mpr
        ⟨k, source.linked catalog id c, ?_, ?_⟩⟩
      · rw [Link.getElem?_script_commands, hc, parsed?_id catalog source hs]
        rfl
      · have hid : (Link.script (source.parsed catalog) source.index
            (parseScript catalog source.index id bytes).1).1.id = id :=
          parsed?_id catalog source hs
        rw [hid]
        exact hd

end SceneSource

/-! ### Logs -/

namespace DiagnosticLog

/-- Of a list that is added to a log, errors and warnings are counted apart. -/
theorem totals_pushAll (log : DiagnosticLog) (ds : List Diagnostic) :
    (log.pushAll ds).errors.total =
        log.errors.total + ds.countP (fun d => d.severity == .error) ∧
      (log.pushAll ds).warnings.total =
        log.warnings.total + ds.countP (fun d => d.severity == .warning) := by
  induction ds generalizing log with
  | nil => exact ⟨rfl, rfl⟩
  | cons d ds ih =>
      have hstep : log.pushAll (d :: ds) = (log.push d).pushAll ds := rfl
      rw [hstep, (ih _).1, (ih _).2, List.countP_cons, List.countP_cons]
      unfold push pushError pushWarning
      cases hd : d.severity <;> simp <;> omega

/-- Nothing is in the log of a list exactly when nothing is in the list. -/
theorem isEmpty_pushAll_iff (ds : List Diagnostic) :
    (DiagnosticLog.empty.pushAll ds).isEmpty = true ↔ ds = [] := by
  obtain ⟨herrors, hwarnings⟩ := totals_pushAll .empty ds
  constructor
  · intro h
    rw [isEmpty, Bool.and_eq_true, beq_iff_eq, beq_iff_eq, herrors, hwarnings] at h
    have hnone := List.countP_eq_zero.mp (Nat.eq_zero_of_add_eq_zero_left h.1)
    have hnone' := List.countP_eq_zero.mp (Nat.eq_zero_of_add_eq_zero_left h.2)
    rw [List.eq_nil_iff_forall_not_mem]
    intro d hd
    cases hs : d.severity with
    | error => exact hnone d hd (by rw [hs]; rfl)
    | warning => exact hnone' d hd (by rw [hs]; rfl)
  · rintro rfl
    rfl

end DiagnosticLog

end SceneScript
