import Mathlib.Algebra.GroupWithZero.Nat
import Mathlib.Data.List.Forall2
import SceneScript.Proofs.Budget
import SceneScript.Proofs.Snapshots

/-! # Frames, turn by turn

A frame gives every script of the scene one turn, in scene order and life before move. What happens
in a frame is what happens in its turns.

* `Turn`, `Scene.turns`: the runs of a frame, each in the scene that the one before it has left.
* `Scene.runFrame_eq`: steps, faults and visits of a frame are those of its turns, in order.
* `Scene.diagnostics_runScript`: a turn adds one diagnostic to the log if it ends in a fault and
  none otherwise.
* `Scene.place_of_runScript`: a fault that names an instruction leaves the script at that
  instruction, unless the game moves the script that runs.
* `Scene.runFrame_accounts`: all this, for every frame of a compiled scene. -/

namespace SceneScript

/-! ### The order of scripts -/

/-- One script comes before another in a frame. -/
def ScriptId.Before (a b : ScriptId) : Prop :=
  a.actor < b.actor ∨ a.actor = b.actor ∧ a.kind = .life ∧ b.kind = .move

theorem Scene.scripts_eq (s : Scene) :
    s.scripts = (List.range s.states.size).flatMap fun a => [.life a, .move a] := rfl

theorem Scene.pairwise_scripts (s : Scene) : s.scripts.Pairwise ScriptId.Before := by
  rw [scripts_eq, List.pairwise_flatMap]
  constructor
  · intro a _
    simp [ScriptId.Before, ScriptId.life, ScriptId.move]
  · refine List.pairwise_lt_range.imp ?_
    intro a b hlt x hx y hy
    left
    simp only [List.mem_cons, List.not_mem_nil, or_false] at hx hy
    rcases hx with rfl | rfl <;> rcases hy with rfl | rfl <;> exact hlt

theorem Scene.mem_scripts_iff {s : Scene} {id : ScriptId} :
    id ∈ s.scripts ↔ id.actor < s.states.size := by
  obtain ⟨a, kind⟩ := id
  rw [scripts_eq, List.mem_flatMap]
  constructor
  · rintro ⟨b, hb, hid⟩
    simp only [List.mem_cons, List.not_mem_nil, or_false] at hid
    rcases hid with hid | hid <;> cases hid <;> exact List.mem_range.mp hb
  · intro hlt
    refine ⟨a, List.mem_range.mpr hlt, ?_⟩
    cases kind <;> simp [ScriptId.life, ScriptId.move]

/-! ### Turns -/

/-- The turn of a script: a run of it, in a scene and with a game in some state. -/
structure Turn (σ : Type) where
  scene : Scene
  host : Host σ
  game : σ
  script : ScriptId
  time : FrameTime

namespace Turn

variable {σ : Type}

def outcome (t : Turn σ) : Scene.Outcome σ := t.scene.runScript t.host t.game t.script t.time

/-- The instructions counted for the turn; those of a script that faults are not. -/
def steps (t : Turn σ) : Nat :=
  match t.outcome.result with
  | .ok steps => steps
  | .error _ => 0

/-- The fault that ended the turn. -/
def fault? (t : Turn σ) : Option (ScriptId × Fault) :=
  match t.outcome.result with
  | .ok _ => none
  | .error fault => some (t.script, fault)

/-- The visit of the turn, if it executed anything. -/
def visit? (t : Turn σ) : Option Visit := t.outcome.scene.visit? t.script t.outcome.visited

/-- The diagnostic for the fault that ended the turn, at the instruction where the script stopped. -/
def diagnostic? (t : Turn σ) : Option Diagnostic :=
  t.fault?.map fun f =>
    f.2.diagnostic t.scene.index t.script (scriptAt t.outcome.scene.states t.script).offset

theorem fault?_eq_some_iff {t : Turn σ} {id : ScriptId} {fault : Fault} :
    t.fault? = some (id, fault) ↔ t.script = id ∧ t.outcome.result = .error fault := by
  unfold fault?
  cases t.outcome.result with
  | ok n => simp
  | error f => simp

theorem visit?_eq_some {t : Turn σ} {v : Visit} (h : t.visit? = some v) :
    v.script = t.script ∧ v.offsets = t.outcome.visited ∧ t.outcome.visited ≠ [] := by
  unfold visit? Scene.visit? at h
  obtain ⟨first, hfirst, rfl⟩ := Option.map_eq_some_iff.mp h
  refine ⟨rfl, rfl, ?_⟩
  intro hnil
  rw [hnil] at hfirst
  cases hfirst

theorem exists_visit?_iff {t : Turn σ} : (∃ v, t.visit? = some v) ↔ t.outcome.visited ≠ [] := by
  constructor
  · rintro ⟨v, hv⟩
    exact (visit?_eq_some hv).2.2
  · intro hvisited
    obtain ⟨first, rest, hcons⟩ := List.exists_cons_of_ne_nil hvisited
    exact ⟨_, by rw [visit?, Scene.visit?, hcons, List.head?_cons, Option.map_some]⟩

end Turn

namespace Scene

variable {σ τ : Type}

/-- The turns of some scripts, each in the scene that the one before it left. -/
def turns (s : Scene) (host : Host σ) (h : σ) (time : FrameTime) : List ScriptId → List (Turn σ)
  | [] => []
  | id :: ids =>
    let turn : Turn σ := ⟨s, host, h, id, time⟩
    turn :: turn.outcome.scene.turns host turn.outcome.host time ids

/-- The scene and the state of the game after the turns of some scripts. -/
def afterTurns (s : Scene) (host : Host σ) (h : σ) (time : FrameTime) : List ScriptId → Scene × σ
  | [] => (s, h)
  | id :: ids =>
    let o := s.runScript host h id time
    o.scene.afterTurns host o.host time ids

/-- The scene at the start of its next frame. -/
def opened (s : Scene) : Scene := { s with frame := s.frame + 1 }

/-- The turns of the next frame. -/
def frameTurns (s : Scene) (host : Host σ) (h : σ) (time : FrameTime) : List (Turn σ) :=
  s.opened.turns host h time s.scripts

theorem map_script_turns (s : Scene) (host : Host σ) (h : σ) (time : FrameTime)
    (ids : List ScriptId) : (s.turns host h time ids).map Turn.script = ids := by
  induction ids generalizing s h with
  | nil => rfl
  | cons id ids ih => rw [turns, List.map_cons, ih]

/-- What every turn keeps holds when a turn begins, and at the end. -/
theorem turns_invariant {P : Scene → Prop} {host : Host σ} {time : FrameTime}
    (hkeep : ∀ {s : Scene} (h : σ) (id : ScriptId), P s → P (s.runScript host h id time).scene)
    {s : Scene} (hs : P s) (h : σ) (ids : List ScriptId) :
    (∀ turn ∈ s.turns host h time ids, P turn.scene) ∧ P (s.afterTurns host h time ids).1 := by
  induction ids generalizing s h with
  | nil => exact ⟨by simp [turns], hs⟩
  | cons id ids ih =>
      obtain ⟨hturns, hlast⟩ := ih (hkeep h id hs) (s.runScript host h id time).host
      refine ⟨?_, hlast⟩
      intro turn hturn
      rcases List.mem_cons.mp hturn with rfl | hturn
      · exact hs
      · exact hturns turn hturn

theorem FrameProgress.run_eq (p : FrameProgress σ) (host : Host σ) (time : FrameTime)
    (id : ScriptId) :
    let turn : Turn σ := ⟨p.scene, host, p.host, id, time⟩
    p.run host time id =
      ⟨turn.outcome.scene, turn.outcome.host,
        ⟨p.report.frame, p.report.steps + turn.steps, p.report.faults ++ turn.fault?.toList⟩,
        p.visits ++ turn.visit?.toList⟩ := by
  unfold FrameProgress.run Turn.steps Turn.fault? Turn.visit? Turn.outcome
  dsimp only
  cases (p.scene.runScript host p.host id time).result <;> simp

/-- **What a frame reports** is what its turns come to, in order. -/
theorem foldl_run (host : Host σ) (time : FrameTime) (ids : List ScriptId) (p : FrameProgress σ) :
    let turns := p.scene.turns host p.host time ids
    let last := p.scene.afterTurns host p.host time ids
    ids.foldl (fun p id => p.run host time id) p =
      ⟨last.1, last.2,
        ⟨p.report.frame, p.report.steps + (turns.map Turn.steps).sum,
          p.report.faults ++ turns.filterMap Turn.fault?⟩,
        p.visits ++ turns.filterMap Turn.visit?⟩ := by
  induction ids generalizing p with
  | nil => simp [turns, afterTurns]
  | cons id ids ih =>
      rw [List.foldl_cons, ih, FrameProgress.run_eq]
      simp only [turns, List.filterMap_eq_flatMap_toList, List.flatMap_cons, List.map_cons,
        List.sum_cons, ← List.append_assoc, ← Nat.add_assoc]
      rfl

end Scene

/-! ### Where scripts fault -/

/-- A game that does not move the script it is called by. -/
def Host.KeepsPlace {σ : Type} (host : Host σ) : Prop :=
  ∀ call h, ((host.execute call h).1.actor.get call.script.kind).offset =
    (call.actor.get call.script.kind).offset

/-- The label of the instruction that a fault names. -/
def Fault.label? : Fault → Option String
  | .broken label _ | .host label _ => some label
  | .overrun .. | .gasExhausted _ | .unknownActor _ | .snapshotMismatch => none

/-- Whether a script ran off its program. -/
def Fault.isOverrun : Fault → Bool
  | .overrun .. => true
  | _ => false

theorem Fault.severity_eq (f : Fault) : f.severity = if f.isOverrun then .warning else .error := by
  cases f <;> rfl

theorem Fails.label? {site : Site} {i : Instruction} {states : Array ActorState} {fault : Fault}
    (h : Fails site i states fault) : fault.label? = some i.label := by
  cases h <;> rfl

section
variable {σ : Type} {host : Host σ} {site : Site} {i : Instruction}

theorem execute_of_isHosted (h : i.operation.isHosted = true) :
    Step.execute host site i = Step.callHost host site i := by
  unfold Step.execute
  cases hop : i.operation <;> rw [hop] at h <;> first | rfl | cases h

theorem place_hand (hhost : host.KeepsPlace) (condition : Option Int) (w : World σ) :
    (scriptAt ((Step.hand host site i condition).run w).2.states site.script).offset =
      (scriptAt w.states site.script).offset := by
  have hreply := hhost (site.call i condition w) w.host
  change (scriptAt (w.states.modify site.script.actor
    fun _ => (host.execute (site.call i condition w) w.host).1.actor) site.script).offset = _
  rcases scriptAt_modify_cases w.states site.script.actor
    (fun _ => (host.execute (site.call i condition w) w.host).1.actor) site.script with
    heq | ⟨-, heq⟩
  · rw [heq]
  · rw [heq]
    exact hreply

/-- Calling the game does not move the script, if the game does not. -/
theorem place_callHost (hhost : host.KeepsPlace) (site : Site) (i : Instruction) (w : World σ) :
    (Step.callHost host site i).Ends w fun _ after =>
      (scriptAt after.states site.script).offset = (scriptAt w.states site.script).offset := by
  obtain ⟨states, c, h⟩ := w
  unfold Step.callHost
  dsimp only
  split
  · next k hk =>
      rw [Exec.ends_bind]
      refine Exec.Ends.imp (Reads.evaluate hk h) ?_
      rintro (fault | value) ⟨after, record, game⟩ ⟨rfl, rfl, -⟩
      · rfl
      · exact place_hand hhost (some value) ⟨_, _, game⟩
  · exact place_hand hhost none ⟨states, c, h⟩

end

namespace Run

variable {σ : Type} {cx : RunContext σ}

/-- No instruction moves its script by itself: what happens next is up to its flow. -/
theorem place_perform (hhost : cx.host.KeepsPlace) (offset : Nat) (i : Instruction) (r : Run σ) :
    (scriptAt (perform cx offset i r).2.states cx.script).offset =
      (scriptAt r.states cx.script).offset := by
  cases hskip : cx.headless && i.opcode.skippedHeadless with
  | true => rw [perform_of_skipped hskip]
  | false =>
      rcases hx : (Step.execute cx.host ⟨cx.script, offset, cx.time⟩ i).run
        ⟨r.states, r.memory.callState offset, r.host⟩ with ⟨result, w⟩
      rw [perform_of_execute hskip hx]
      cases hhosted : i.operation.isHosted with
      | true =>
          have hplace := place_callHost hhost ⟨cx.script, offset, cx.time⟩ i
            ⟨r.states, r.memory.callState offset, r.host⟩
          unfold Exec.Ends at hplace
          rw [← execute_of_isHosted hhosted, hx] at hplace
          exact hplace
      | false =>
          have hacts : (Step.execute cx.host ⟨cx.script, offset, cx.time⟩ i).Ends
              ⟨r.states, r.memory.callState offset, r.host⟩ _ := Executes.execute r.host
          unfold Exec.Ends at hacts
          rw [hx] at hacts
          cases hacts with
          | @effect flow script f _ he hstates _ =>
              rw [hstates]
              rcases scriptAt_modifyScript_cases r.states script f cx.script with heq | ⟨rfl, heq⟩
              · rw [heq]
              · rw [heq, (he.keeps _).2]
          | fault _ hstates _ => rw [hstates]
          | hosted hop => exact absurd (hhosted.symm.trans hop) (by decide)

theorem place_of_fault (hhost : cx.host.KeepsPlace) {r after : Run σ} {offset : Nat}
    {i : Instruction} {f : Fault} (hat : At cx r offset i)
    (hstep : step cx offset i r = (.error f, after)) :
    (scriptAt after.states cx.script).offset = offset := by
  have hplace := place_perform hhost offset i (arrived cx offset r)
  have hentered : (scriptAt (entered cx r) cx.script).offset = offset := by
    rw [entered, scriptAt_modifyScript_self (actor_lt_of_running hat.1)]
    exact hat.2.1
  rcases hp : perform cx offset i (arrived cx offset r) with ⟨fault | flow, s⟩
  · rw [step_of_perform_error hp] at hstep
    cases hstep
    rw [hp] at hplace
    exact hplace.trans hentered
  · rw [step_of_perform_ok hp] at hstep
    cases hstep

/-- What a run executes first is the instruction it is at. -/
theorem visited_drive_first (cx : RunContext σ) (gas : Nat) (r : Run σ) :
    (drive cx gas r).2.visited = r.visited ∨
      (r.visited.push (r.script cx.script).offset).toList <+:
        (drive cx gas r).2.visited.toList := by
  rcases settles_or_at cx r with hsettles | ⟨offset, i, hat⟩
  · exact .inl (by rw [(hsettles gas).2])
  cases gas with
  | zero => exact .inl (by rw [drive_zero_of_at hat])
  | succ gas =>
      right
      have hvisited := visited_step cx offset i r
      rw [hat.2.1, drive_succ_of_at hat]
      rcases hs : step cx offset i r with ⟨fault | u, s⟩
      · rw [hs] at hvisited
        exact ⟨[], by rw [List.append_nil, ← show s.visited = _ from hvisited]⟩
      · rw [hs] at hvisited
        rw [← show s.visited = _ from hvisited]
        exact visited_prefix_drive cx gas s

end Run

namespace Scene

variable {σ τ : Type} {s : Scene} {id : ScriptId} {program : Program}

theorem place_terminate (states : Array ActorState) (id : ScriptId) :
    (scriptAt (modifyScript states id ScriptState.terminate) id).offset =
      (scriptAt states id).offset := by
  rcases scriptAt_modifyScript_cases states id ScriptState.terminate id with heq | ⟨-, heq⟩
  · rw [heq]
  · rw [heq]
    rfl

/-- Where a script is left by its run: a fault that names an instruction has left it there. -/
theorem place_of_runScript {host : Host σ} (hhost : host.KeepsPlace)
    (hp : s.program? id = some program) {h : σ} {time : FrameTime} {fault : Fault} {label : String}
    (hfault : (s.runScript host h id time).result = .error fault)
    (hlabel : fault.label? = some label) :
    ∃ i, program.instructions[(scriptAt (s.runScript host h id time).scene.states id).offset]? =
      some i ∧ label = i.label := by
  rcases runScript_error_cases hp hfault with
    ⟨offset, length, rfl⟩ | ⟨limit, rfl⟩ | ⟨r, offset, i, last, -, hat, -, hstep, -, hstates⟩
  · cases hlabel
  · cases hlabel
  · have hplace : (scriptAt (s.runScript host h id time).scene.states id).offset =
        (scriptAt last.states id).offset := by
      rw [hstates]
      exact place_terminate last.states id
    have hat' : (scriptAt last.states id).offset = offset := Run.place_of_fault hhost hat hstep
    have hname := (Run.fails_of_step hstep).label?
    rw [hlabel, Option.some.injEq] at hname
    rw [hplace, hat']
    exact ⟨i, hat.2.2, hname⟩

/-- A run that executes anything starts where the script was to resume. -/
theorem visited_head?_eq_reentry (hp : s.program? id = some program)
    (hactor : id.actor < s.states.size) (host : Host σ) (h : σ) (time : FrameTime) {first : Nat}
    (hfirst : (s.runScript host h id time).visited.head? = some first) :
    (scriptAt s.states id).reentry = some first := by
  cases hr : (scriptAt s.states id).reentry with
  | none =>
      rw [runScript_of_ended hp hr, outcome_visited] at hfirst
      cases hfirst
  | some start =>
      have hscript : ((s.started h id start).script id).offset = start :=
        congrArg ScriptState.offset (scriptAt_modifyScript_self hactor _)
      rw [runScript_of_reentry hp hr, outcome_visited] at hfirst
      rcases Run.visited_drive_first (s.context host id program time) s.config.gasLimit
        (s.started h id start) with hnone | ⟨rest, hrest⟩
      · rw [hnone] at hfirst
        cases hfirst
      · rw [← hrest, show (s.context host id program time).script = id from rfl, hscript] at hfirst
        exact hfirst

/-! ### What a turn logs -/

theorem frame_runScript (s : Scene) (host : Host σ) (h : σ) (id : ScriptId) (time : FrameTime) :
    (s.runScript host h id time).scene.frame = s.frame := by
  unfold runScript
  split
  · rfl
  · dsimp only
    split <;> rfl

/-- A turn of a script of the scene logs the fault that ends it, and nothing else. -/
theorem diagnostics_runScript (hp : s.program? id = some program) (host : Host σ) (h : σ)
    (time : FrameTime) :
    (s.runScript host h id time).scene.diagnostics =
      s.diagnostics.pushAll (⟨s, host, h, id, time⟩ : Turn σ).diagnostic?.toList := by
  unfold Turn.diagnostic? Turn.fault? Turn.outcome
  dsimp only
  rw [runScript_eq_outcome hp]
  rcases Run.start (s.context host id program time) (s.ready h id) with ⟨fault | u, r⟩
  · exact congrArg (fun k => s.diagnostics.push (fault.diagnostic s.index id k))
      (place_terminate r.states id).symm
  · rfl

theorem pushAll_append (log : DiagnosticLog) (ds es : List Diagnostic) :
    log.pushAll (ds ++ es) = (log.pushAll ds).pushAll es := List.foldl_append

theorem host_of_mem_turns {host : Host σ} {time : FrameTime} {ids : List ScriptId} {h : σ}
    {turn : Turn σ} (hturn : turn ∈ s.turns host h time ids) : turn.host = host := by
  induction ids generalizing s h with
  | nil => cases hturn
  | cons id ids ih =>
      rcases List.mem_cons.mp hturn with rfl | hturn
      · rfl
      · exact ih hturn

theorem diagnostics_afterTurns (host : Host σ) (time : FrameTime) (ids : List ScriptId)
    (hids : ∀ id ∈ ids, (s.program? id).isSome = true) (h : σ) :
    (s.afterTurns host h time ids).1.diagnostics =
      s.diagnostics.pushAll ((s.turns host h time ids).filterMap Turn.diagnostic?) := by
  induction ids generalizing s h with
  | nil => rfl
  | cons id ids ih =>
      obtain ⟨program, hp⟩ := Option.isSome_iff_exists.mp (hids id List.mem_cons_self)
      have hrest : ∀ other ∈ ids,
          ((s.runScript host h id time).scene.program? other).isSome = true := by
        intro other hother
        rw [program?_runScript]
        exact hids other (List.mem_cons_of_mem id hother)
      rw [afterTurns, ih hrest, diagnostics_runScript hp, ← pushAll_append, turns,
        List.filterMap_eq_flatMap_toList, List.filterMap_eq_flatMap_toList, List.flatMap_cons]
      rfl

/-! ### Frames -/

/-- A frame is its turns. -/
theorem runFrame_eq (s : Scene) (host : Host σ) (h : σ) (time : FrameTime) :
    let turns := s.frameTurns host h time
    let last := s.opened.afterTurns host h time s.scripts
    s.runFrame host h time =
      (⟨s.frame + 1, (turns.map Turn.steps).sum, turns.filterMap Turn.fault?⟩,
        { last.1 with
          trace :=
            if s.config.trace then some ⟨s.frame + 1, turns.filterMap Turn.visit?⟩ else none },
        last.2) := by
  have hdone := foldl_run host time s.scripts ⟨s.opened, h, { frame := s.frame + 1 }, []⟩
  dsimp only at hdone
  rw [Nat.zero_add, List.nil_append, List.nil_append] at hdone
  unfold runFrame
  dsimp only
  rw [show ({ s with frame := s.frame + 1 } : Scene) = s.opened from rfl, hdone]
  rfl

theorem frame_runFrame (s : Scene) (host : Host σ) (h : σ) (time : FrameTime) :
    (s.runFrame host h time).2.1.frame = s.frame + 1 ∧
      (s.runFrame host h time).1.frame = s.frame + 1 := by
  have hkeep : ∀ {t : Scene} (g : σ) (id : ScriptId), t.frame = s.frame + 1 →
      (t.runScript host g id time).scene.frame = s.frame + 1 := by
    intro t g id ht
    rw [frame_runScript, ht]
  rw [runFrame_eq]
  exact ⟨(turns_invariant (P := fun t => t.frame = s.frame + 1) hkeep rfl h s.scripts).2, rfl⟩

theorem program?_of_blank {t : Scene} (h : t.blank = s.blank) (id : ScriptId) :
    t.program? id = s.program? id := by
  change t.blank.program? id = s.blank.program? id
  rw [h]

theorem size_of_blank {t : Scene} (h : t.blank = s.blank) : t.states.size = s.states.size := by
  have hsize : t.blank.states.size = s.blank.states.size := by rw [h]
  rwa [blank, blank, Array.size_replicate, Array.size_replicate] at hsize

/-- The turns of a frame are those of scripts of the scene, which is not changed but in play. -/
theorem mem_frameTurns {host : Host σ} {h : σ} {time : FrameTime} {turn : Turn σ}
    (hturn : turn ∈ s.frameTurns host h time) :
    turn.script ∈ s.scripts ∧ turn.host = host ∧ turn.scene.blank = s.blank := by
  refine ⟨?_, host_of_mem_turns hturn, ?_⟩
  · rw [← map_script_turns s.opened host h time s.scripts]
    exact List.mem_map_of_mem hturn
  · have hkeep : ∀ {t : Scene} (g : σ) (id : ScriptId), t.blank = s.blank →
        (t.runScript host g id time).scene.blank = s.blank := by
      intro t g id ht
      rw [blank_runScript, ht]
    have hopened : s.opened.blank = s.blank := rfl
    exact (turns_invariant (P := fun t => t.blank = s.blank) hkeep hopened h s.scripts).1 turn hturn

theorem pairwise_frameTurns (s : Scene) (host : Host σ) (h : σ) (time : FrameTime) :
    ((s.frameTurns host h time).map Turn.script).Pairwise ScriptId.Before := by
  rw [frameTurns, map_script_turns]
  exact s.pairwise_scripts

/-- A list of what some turns came to is in the order of the turns. -/
theorem pairwise_of_turns {β : Type} {turns : List (Turn σ)}
    (hturns : (turns.map Turn.script).Pairwise ScriptId.Before) {f : Turn σ → Option β}
    {script : β → ScriptId} (hscript : ∀ t b, f t = some b → script b = t.script) :
    ((turns.filterMap f).map script).Pairwise ScriptId.Before := by
  refine hturns.sublist ?_
  induction turns with
  | nil => exact List.Sublist.refl _
  | cons t turns ih =>
      have ih := ih (List.pairwise_cons.mp hturns).2
      cases hf : f t with
      | none =>
          rw [List.filterMap_cons_none hf, List.map_cons]
          exact ih.cons _
      | some b =>
          rw [List.filterMap_cons_some hf, List.map_cons, List.map_cons, hscript t b hf]
          exact ih.cons_cons _

/-- A diagnostic logs the fault of a script, at the instruction that the fault names if it names
one. -/
def Logs (s : Scene) (f : ScriptId × Fault) (d : Diagnostic) : Prop :=
  ∃ k, d = f.2.diagnostic s.index f.1 k ∧ ∀ label, f.2.label? = some label →
    ∃ p i, s.program? f.1 = some p ∧ p.instructions[k]? = some i ∧
      label = toString k ++ " " ++ i.opcode.name

/-- Instructions know their place. -/
def Indexed (s : Scene) : Prop :=
  ∀ id p, s.program? id = some p → ∀ k (i : Instruction), p.instructions[k]? = some i → i.index = k

theorem logs_frameTurns {host : Host σ} (hhost : host.KeepsPlace) (hindexed : s.Indexed)
    (hprograms : ∀ id ∈ s.scripts, (s.program? id).isSome = true) (h : σ) (time : FrameTime) :
    List.Forall₂ s.Logs ((s.frameTurns host h time).filterMap Turn.fault?)
      ((s.frameTurns host h time).filterMap Turn.diagnostic?) := by
  refine List.rel_filterMap (R := fun t u => t = u ∧ t ∈ s.frameTurns host h time) ?_
    (List.forall₂_same.mpr fun turn hturn => ⟨rfl, hturn⟩)
  rintro turn _ ⟨rfl, hturn⟩
  obtain ⟨hscript, rfl, hblank⟩ := mem_frameTurns hturn
  unfold Turn.diagnostic?
  cases hfault : turn.fault? with
  | none => exact .none
  | some f =>
      obtain ⟨id, fault⟩ := f
      obtain ⟨rfl, hresult⟩ := Turn.fault?_eq_some_iff.mp hfault
      refine .some ⟨(scriptAt turn.outcome.scene.states turn.script).offset, ?_, ?_⟩
      · have hindex : turn.scene.blank.index = s.blank.index := by rw [hblank]
        rw [show turn.scene.index = s.index from hindex]
      · intro label hlabel
        obtain ⟨p, hp⟩ := Option.isSome_iff_exists.mp (hprograms turn.script hscript)
        have hp' : turn.scene.program? turn.script = some p := by
          rw [program?_of_blank hblank, hp]
        obtain ⟨i, hi, rfl⟩ := place_of_runScript hhost hp' hresult hlabel
        refine ⟨p, i, hp, hi, ?_⟩
        rw [Instruction.label, hindexed _ p hp _ i hi]
        rfl

theorem countP_of_forall₂ {α β : Type} {R : α → β → Prop} {p : α → Bool} {q : β → Bool}
    (hpq : ∀ a b, R a b → p a = q b) {l : List α} {m : List β} (h : List.Forall₂ R l m) :
    l.countP p = m.countP q := by
  induction h with
  | nil => rfl
  | cons hab _ ih => rw [List.countP_cons, List.countP_cons, ih, hpq _ _ hab]

/-- The faults that a frame reports, in order, are those that its turns ended in. -/
theorem faults_runFrame (s : Scene) (host : Host σ) (h : σ) (time : FrameTime) :
    let faults := (s.runFrame host h time).1.faults
    (faults.map Prod.fst).Pairwise ScriptId.Before ∧ ∀ id fault, (id, fault) ∈ faults ↔
      ∃ turn ∈ s.frameTurns host h time, turn.script = id ∧ turn.outcome.result = .error fault := by
  rw [runFrame_eq]
  constructor
  · apply pairwise_of_turns (s.pairwise_frameTurns host h time)
    rintro turn ⟨id, fault⟩ hfault
    exact (Turn.fault?_eq_some_iff.mp hfault).1.symm
  · intro id fault
    simp only [List.mem_filterMap, Turn.fault?_eq_some_iff]

/-- The faults of a frame are logged, each as it deserves. -/
theorem diagnostics_runFrame {host : Host σ} (hhost : host.KeepsPlace) (hindexed : s.Indexed)
    (hprograms : ∀ id ∈ s.scripts, (s.program? id).isSome = true) (h : σ) (time : FrameTime) :
    let faults := (s.runFrame host h time).1.faults
    let log := (s.runFrame host h time).2.1.diagnostics
    (∃ ds, log = s.diagnostics.pushAll ds ∧ List.Forall₂ s.Logs faults ds) ∧
      log.warnings.total =
        s.diagnostics.warnings.total + faults.countP (fun f => f.2.isOverrun) ∧
      log.errors.total =
        s.diagnostics.errors.total + faults.countP (fun f => !f.2.isOverrun) := by
  have hlogs := s.logs_frameTurns hhost hindexed hprograms h time
  have hlog := diagnostics_afterTurns (s := s.opened) host time s.scripts hprograms h
  rw [runFrame_eq]
  dsimp only
  rw [hlog]
  obtain ⟨herrors, hwarnings⟩ := DiagnosticLog.totals_pushAll s.diagnostics
    ((s.frameTurns host h time).filterMap Turn.diagnostic?)
  refine ⟨⟨_, rfl, hlogs⟩, ?_, ?_⟩
  · refine hwarnings.trans (congrArg _ (countP_of_forall₂ ?_ hlogs).symm)
    rintro ⟨id, fault⟩ d ⟨k, rfl, -⟩
    change _ = (fault.severity == .warning)
    cases hover : fault.isOverrun <;> rw [Fault.severity_eq, hover] <;> rfl
  · refine herrors.trans (congrArg _ (countP_of_forall₂ ?_ hlogs).symm)
    rintro ⟨id, fault⟩ d ⟨k, rfl, -⟩
    change _ = (fault.severity == .error)
    cases hover : fault.isOverrun <;> rw [Fault.severity_eq, hover] <;> rfl

/-- What a frame traces are the turns that executed anything, in order. -/
theorem trace_runFrame (htrace : s.config.trace = true)
    (hprograms : ∀ id ∈ s.scripts, (s.program? id).isSome = true) (host : Host σ) (h : σ)
    (time : FrameTime) :
    ∃ trace, (s.runFrame host h time).2.1.trace = some trace ∧ trace.frame = s.frame + 1 ∧
      (trace.visits.map Visit.script).Pairwise ScriptId.Before ∧
      (∀ id, id ∈ trace.visits.map Visit.script ↔ ∃ turn ∈ s.frameTurns host h time,
        turn.script = id ∧ turn.outcome.visited ≠ []) ∧
      ∀ visit ∈ trace.visits, ∃ turn ∈ s.frameTurns host h time, turn.script = visit.script ∧
        turn.outcome.visited = visit.offsets ∧
        ∃ start, (scriptAt turn.scene.states visit.script).reentry = some start ∧
          visit.offsets.head? = some start := by
  refine ⟨⟨s.frame + 1, (s.frameTurns host h time).filterMap Turn.visit?⟩, ?_, rfl, ?_, ?_, ?_⟩
  · rw [runFrame_eq]
    exact if_pos htrace
  · apply pairwise_of_turns (s.pairwise_frameTurns host h time)
    intro turn visit hvisit
    exact (Turn.visit?_eq_some hvisit).1
  · intro id
    constructor
    · intro hid
      obtain ⟨visit, hmem, rfl⟩ := List.mem_map.mp hid
      obtain ⟨turn, hturn, hvisit⟩ := List.mem_filterMap.mp hmem
      obtain ⟨hscript, -, hvisited⟩ := Turn.visit?_eq_some hvisit
      exact ⟨turn, hturn, hscript.symm, hvisited⟩
    · rintro ⟨turn, hturn, rfl, hvisited⟩
      obtain ⟨visit, hvisit⟩ := Turn.exists_visit?_iff.mpr hvisited
      refine List.mem_map.mpr ⟨visit, List.mem_filterMap.mpr ⟨turn, hturn, hvisit⟩, ?_⟩
      exact (Turn.visit?_eq_some hvisit).1
  · intro visit hmem
    obtain ⟨turn, hturn, hvisit⟩ := List.mem_filterMap.mp hmem
    obtain ⟨hscript, hoffsets, hvisited⟩ := Turn.visit?_eq_some hvisit
    obtain ⟨first, rest, hcons⟩ := List.exists_cons_of_ne_nil hvisited
    have hhead : turn.outcome.visited.head? = some first := by rw [hcons, List.head?_cons]
    obtain ⟨hid, -, hblank⟩ := mem_frameTurns hturn
    obtain ⟨p, hp⟩ := Option.isSome_iff_exists.mp (hprograms turn.script hid)
    have hp' : turn.scene.program? turn.script = some p := by rw [program?_of_blank hblank, hp]
    have hactor : turn.script.actor < turn.scene.states.size := by
      rw [size_of_blank hblank]
      exact mem_scripts_iff.mp hid
    refine ⟨turn, hturn, hscript.symm, hoffsets.symm, first, ?_, ?_⟩
    · rw [hscript]
      exact visited_head?_eq_reentry hp' hactor turn.host turn.game turn.time hhead
    · rw [hoffsets, hhead]

theorem instruction_index {catalog : Catalog} {source : SceneSource} {k : Nat} {part : Option Int}
    {c : Command} : (source.instruction catalog id k part c).index = k := rfl

/-- What a compiled scene is like whatever it has gone through: it has programs for the scripts of
its actors, and instructions know their place. -/
theorem reached (catalog : Catalog) (source : SceneSource) (config : Config) (g : τ)
    (past : List (Request τ)) :
    let s := ((ofCompiled (compileScene catalog source) config).play g past).2.1
    s.config = config ∧ s.states.size = source.actors.length ∧
      (∀ id ∈ s.scripts, (s.program? id).isSome = true) ∧ s.Indexed := by
  intro s
  have hblank : s.blank = (ofCompiled (compileScene catalog source) config).blank :=
    blank_play _ g past
  have hprogram : ∀ id, s.program? id =
      (source.parsed? catalog id).map (source.program catalog) := by
    intro id
    rw [program?_of_blank hblank, SceneSource.program?_ofCompiled]
  have hsize : s.states.size = source.actors.length := by
    rw [size_of_blank hblank, ← SceneSource.size_compileScene_actors catalog source]
    exact Array.size_map
  refine ⟨?_, hsize, ?_, ?_⟩
  · change s.blank.config = config
    rw [hblank]
    rfl
  · intro id hid
    have hlt : id.actor < (source.parsed catalog).size := by
      rw [SceneSource.size_parsed, ← hsize]
      exact mem_scripts_iff.mp hid
    rw [hprogram, SceneSource.parsed?, Array.getElem?_eq_getElem hlt]
    rfl
  · intro id p hp k i hi
    rw [hprogram, Option.map_eq_some_iff] at hp
    obtain ⟨parsed, hparsed, rfl⟩ := hp
    rw [SceneSource.getElem?_instructions catalog source hparsed, Option.map_eq_some_iff] at hi
    obtain ⟨c, -, rfl⟩ := hi
    exact instruction_index

/-- **A frame accounts for every script once.** Take a compiled scene, whatever it has gone
through, and a frame of it with a game that does not move the script it is called by. The frame
counter, of 64 bits, goes up by one. Every script gets one turn, in scene order and life before
move, whether or not one before it has faulted; the steps of the frame are those of its turns, and
it leaves scene and game as the last turn does. The report lists the turns that ended in a fault,
in this order, and the log grows by one diagnostic for each of these faults: a warning if the
script ran off its program, an error otherwise, and at the instruction that the fault names if it
names one. With tracing on, the trace lists the turns that executed anything, in this order, and
the instructions of each start with the one at which the script was to resume when its turn
came. -/
theorem runFrame_accounts (catalog : Catalog) (source : SceneSource) (config : Config) (g : τ)
    (past : List (Request τ)) {host : Host σ} (hhost : host.KeepsPlace) (h : σ) (time : FrameTime) :
    let s := ((ofCompiled (compileScene catalog source) config).play g past).2.1
    let turns := s.frameTurns host h time
    let last := s.opened.afterTurns host h time s.scripts
    let report := (s.runFrame host h time).1
    let after := (s.runFrame host h time).2.1
    (after.frame = s.frame + 1 ∧ report.frame = s.frame + 1) ∧
    (turns.map Turn.script =
        ((List.range source.actors.length).flatMap fun a => [.life a, .move a]) ∧
      report.steps = (turns.map Turn.steps).sum ∧
      (s.runFrame host h time).2 = ({ last.1 with trace := after.trace }, last.2)) ∧
    ((report.faults.map Prod.fst).Pairwise ScriptId.Before ∧
      ∀ id fault, (id, fault) ∈ report.faults ↔
        ∃ turn ∈ turns, turn.script = id ∧ turn.outcome.result = .error fault) ∧
    ((∃ ds, after.diagnostics = s.diagnostics.pushAll ds ∧ List.Forall₂ s.Logs report.faults ds) ∧
      after.diagnostics.warnings.total =
        s.diagnostics.warnings.total + report.faults.countP (fun f => f.2.isOverrun) ∧
      after.diagnostics.errors.total =
        s.diagnostics.errors.total + report.faults.countP (fun f => !f.2.isOverrun)) ∧
    (config.trace = true → ∃ trace, after.trace = some trace ∧ trace.frame = s.frame + 1 ∧
      (trace.visits.map Visit.script).Pairwise ScriptId.Before ∧
      (∀ id, id ∈ trace.visits.map Visit.script ↔
        ∃ turn ∈ turns, turn.script = id ∧ turn.outcome.visited ≠ []) ∧
      ∀ visit ∈ trace.visits, ∃ turn ∈ turns, turn.script = visit.script ∧
        turn.outcome.visited = visit.offsets ∧
        ∃ start, (scriptAt turn.scene.states visit.script).reentry = some start ∧
          visit.offsets.head? = some start) := by
  intro s turns last report after
  obtain ⟨hconfig, hsize, hprograms, hindexed⟩ := reached catalog source config g past
  have hframe := s.runFrame_eq host h time
  refine ⟨s.frame_runFrame host h time, ⟨?_, ?_, ?_⟩, s.faults_runFrame host h time,
    diagnostics_runFrame hhost hindexed hprograms h time, ?_⟩
  · rw [← hsize]
    exact map_script_turns s.opened host h time s.scripts
  · exact congrArg (fun r => r.1.steps) hframe
  · dsimp only [after]
    rw [hframe]
  · intro htrace
    exact trace_runFrame (by rwa [hconfig]) hprograms host h time

/-- A second frame in which three scripts fault, each in its own way: the game refuses a command, a
script runs off its program, and a jump leads nowhere. They have been restarted and begin with their
first instruction; the move script of the last actor goes on waiting at its second. The two scripts
without instructions are not in the trace. -/
theorem runFrame_accounts_faults :
    let source : SceneSource :=
      { actors := [{ life := [0x0A, 3], moves := [0x09, 7] }, { life := [0x03, 9, 0] },
          { moves := [0x09, 3, 0x12, 5, 0, 0, 0, 0, 0x0B] }] }
    let host : Host Unit :=
      ⟨fun call h => (⟨.error (.failed "no"), call.actor, none⟩, h), fun _ h => (.ok 0, h)⟩
    let past : List (Request Unit) := [.frame host {}, .revive 0, .revive 1]
    let s := ((ofCompiled (compileScene .standard source) { trace := true }).play () past).2.1
    let report := (s.runFrame host () {}).1
    let after := (s.runFrame host () {}).2.1
    report.faults = [(.life 0, .host "1 PALETTE" (.failed "no")), (.move 0, .overrun 1 1),
      (.life 1, .broken "1 OFFSET" (.unresolvedJump 9))] ∧
    after.frame = s.frame + 1 ∧
    (∃ ds, after.diagnostics = s.diagnostics.pushAll ds ∧ List.Forall₂ s.Logs report.faults ds) ∧
    ∃ trace, after.trace = some trace ∧
      (trace.visits.map Visit.script).Pairwise ScriptId.Before ∧
      trace.visits.map (fun visit => (visit.script, visit.offsets)) =
        [(.life 0, [0, 1]), (.move 0, [0]), (.life 1, [0, 1]), (.move 2, [1])] ∧
      ∀ visit ∈ trace.visits, ∃ turn ∈ s.frameTurns host () {}, turn.script = visit.script ∧
        ∃ start, (scriptAt turn.scene.states visit.script).reentry = some start ∧
          visit.offsets.head? = some start := by
  intro source host past
  dsimp only
  have hhost : host.KeepsPlace := fun _ _ => rfl
  obtain ⟨⟨hframe, -⟩, -, -, ⟨hlog, -⟩, htrace⟩ :=
    runFrame_accounts .standard source { trace := true } () past hhost () {}
  obtain ⟨trace, hsome, -, horder, -, hstarts⟩ := htrace rfl
  have hvisits :
      (some trace).map (fun t => t.visits.map fun visit => (visit.script, visit.offsets)) =
        some [(.life 0, [0, 1]), (.move 0, [0]), (.life 1, [0, 1]), (.move 2, [1])] := by
    rw [← hsome]
    decide +kernel
  refine ⟨by decide +kernel, hframe, hlog, trace, hsome, horder, Option.some.inj hvisits, ?_⟩
  intro visit hvisit
  obtain ⟨turn, hturn, hscript, -, hstart⟩ := hstarts visit hvisit
  exact ⟨turn, hturn, hscript, hstart⟩

end Scene

end SceneScript
