import SceneScript.Proofs.Frames
import SceneScript.Proofs.Positions

/-! # Active tracks and where they were declared

TRACK notes the active track of a move script together with its own position, which
STOP_CURRENT_TRACK stores for RESTORE_LAST_TRACK. Nothing that runs writes one of the two without the
other. Reviving an actor clears the track and leaves the position.

* `ScriptState.TracksTogether`: without an active track no position of one is remembered.
* `Effect.tracksTogether`, `Scene.tracksTogether_runScript`: what one instruction keeps, and then a
  run.
* `Scene.TrackHistory`: histories in which an actor is revived only while no position is remembered.
* `Scene.tracksTogether_of_history`: the two stay together in them, and a script that is stopped and
  restored without an active track stays ended. Reviving is the only operation that parts the two,
  and it does so exactly if a position is remembered. -/

namespace SceneScript

/-! ### The two notes -/

/-- Without an active track no position of one is remembered. -/
def ScriptState.TracksTogether (s : ScriptState) : Prop := s.track = none → s.trackOffset = none

namespace ScriptState

variable {s t : ScriptState}

theorem TracksTogether.congr (h : s.TracksTogether) (htrack : t.track = s.track)
    (hoffset : t.trackOffset = s.trackOffset) : t.TracksTogether := by
  intro hnone
  rw [hoffset]
  exact h (htrack.symm.trans hnone)

/-- Stopping the move script and restoring its track ends the script if none is active. -/
theorem TracksTogether.reentry_restoreTrack (h : s.TracksTogether) (hnone : s.track = none) :
    (Step.restoreTrack (Step.stopTrack s)).reentry = none := by
  have hsaved : (Step.stopTrack s).savedOffset = none := h hnone
  unfold Step.restoreTrack
  rw [hsaved]
  rfl

theorem TracksTogether.apply (h : s.TracksTogether) (flow : Flow) (offset : Nat) :
    (flow.apply offset s).TracksTogether := by
  cases flow <;> exact h.congr rfl rfl

end ScriptState

/-! ### Instructions and runs -/

/-- A change that keeps the notes of every script together keeps those of one. -/
theorem tracksTogether_modifyScript {states : Array ActorState} {id : ScriptId}
    (h : (scriptAt states id).TracksTogether) (script : ScriptId) {f : ScriptState → ScriptState}
    (hf : ∀ s : ScriptState, s.TracksTogether → (f s).TracksTogether) :
    (scriptAt (modifyScript states script f) id).TracksTogether := by
  rcases scriptAt_modifyScript_cases states script f id with heq | ⟨rfl, heq⟩
  · rwa [heq]
  · rw [heq]
    exact hf _ h

/-- TRACK writes both notes, and no other instruction writes one. -/
theorem Effect.tracksTogether {site : Site} {i : Instruction} {states : Array ActorState} {flow : Flow}
    {script : ScriptId} {f : ScriptState → ScriptState} (he : Effect site i states flow script f)
    (s : ScriptState) (h : s.TracksTogether) : (f s).TracksTogether := by
  cases he with
  | declareTrack =>
      intro hnone
      cases hnone
  | resumeTrack | resumeTrackOf =>
      unfold Step.restoreTrack
      split <;> exact h.congr rfl rfl
  | _ => exact h.congr rfl rfl

section
variable {σ : Type} {id : ScriptId}

theorem Acts.tracksTogether {host : Host σ} (hhost : host.Keeps) {site : Site} {i : Instruction}
    {states : Array ActorState} {c : CallState} {result : Except Fault Flow} {w : World σ}
    (hacts : Acts host site i states c result w) (h : (scriptAt states id).TracksTogether) :
    (scriptAt w.states id).TracksTogether := by
  cases hacts with
  | effect he hstates _ =>
      rw [hstates]
      exact tracksTogether_modifyScript h _ he.tracksTogether
  | fault _ hstates _ => rwa [hstates]
  | hosted _ hcall hstates =>
      rw [hstates]
      rcases scriptAt_modify_cases states site.script.actor _ id with heq | ⟨hactor, heq⟩
      · rwa [heq]
      · rw [heq, hhost, hcall, ← hactor]
        exact h

namespace Run

variable {cx : RunContext σ}

theorem tracksTogether_step (hhost : cx.host.Keeps) (offset : Nat) (i : Instruction) {r : Run σ}
    (h : (scriptAt r.states id).TracksTogether) :
    (scriptAt (step cx offset i r).2.states id).TracksTogether := by
  obtain ⟨c, result, w, hacts, -, hstates⟩ := step_acts cx offset i r
  have hentered : (scriptAt (entered cx r) id).TracksTogether :=
    tracksTogether_modifyScript h cx.script fun _ hs => hs.congr rfl rfl
  have hw := hacts.tracksTogether hhost hentered
  rw [hstates]
  cases result with
  | ok flow => exact tracksTogether_modifyScript hw cx.script fun _ hs => hs.apply flow offset
  | error fault => exact hw

theorem Steps.tracksTogether (hhost : cx.host.Keeps) {n : Nat} {r s : Run σ} (h : Steps cx n r s)
    (hr : (scriptAt r.states id).TracksTogether) : (scriptAt s.states id).TracksTogether := by
  refine h.invariant (P := fun r => (scriptAt r.states id).TracksTogether) ?_ hr
  intro u v offset i _ hstep hu
  have hv := tracksTogether_step hhost offset i hu
  rwa [hstep] at hv

theorem Stops.tracksTogether (hhost : cx.host.Keeps) {r : Run σ} {o : Except Fault Unit × Run σ}
    (h : Stops cx r o) (hr : (scriptAt r.states id).TracksTogether) :
    (scriptAt o.2.states id).TracksTogether := by
  cases h with
  | ended | overrun | exhausted => exact hr
  | @fault offset i f after _ hstep =>
      have hv := tracksTogether_step hhost offset i hr
      rwa [hstep] at hv

end Run

namespace Scene

/-- A run keeps the notes of every script together. -/
theorem tracksTogether_runScript {s : Scene} {host : Host σ} (hhost : host.Keeps)
    (hs : (scriptAt s.states id).TracksTogether) (h : σ) (script : ScriptId) (time : FrameTime) :
    (scriptAt (s.runScript host h script time).scene.states id).TracksTogether := by
  cases hp : s.program? script with
  | none => simpa [runScript, hp] using hs
  | some program =>
      cases hr : (scriptAt s.states script).reentry with
      | none => rwa [(runScript_of_terminated hp hr host h time).2]
      | some start =>
          obtain ⟨n, r, result, last, hsteps, hstops, -, -, hstates⟩ :=
            runScript_stops hp hr host h time
          have hstarted : (scriptAt (s.started h script start).states id).TracksTogether :=
            tracksTogether_modifyScript hs script fun _ ht => ht.congr rfl rfl
          have hlast : (scriptAt last.states id).TracksTogether :=
            hstops.tracksTogether hhost (hsteps.tracksTogether hhost hstarted)
          rw [hstates]
          cases result with
          | ok u => exact hlast
          | error fault =>
              exact tracksTogether_modifyScript hlast script fun _ ht => ht.congr rfl rfl

theorem tracksTogether_runFrame {s : Scene} {host : Host σ} (hhost : host.Keeps)
    (hs : (scriptAt s.states id).TracksTogether) (h : σ) (time : FrameTime) :
    (scriptAt (s.runFrame host h time).2.1.states id).TracksTogether := by
  rw [runFrame_eq]
  exact (turns_invariant (P := fun s => (scriptAt s.states id).TracksTogether)
    (fun g script hs => tracksTogether_runScript hhost hs g script time) (s := s.opened) hs h
    s.scripts).2

/-! ### Histories -/

/-- A change of an actor that keeps the notes of its scripts together. -/
theorem tracksTogether_modify {states : Array ActorState}
    (hs : (scriptAt states id).TracksTogether) (a : Nat) {f : ActorState → ActorState}
    (hf : id.actor = a → ∀ b : ActorState, (b.get id.kind).TracksTogether →
      ((f b).get id.kind).TracksTogether) :
    (scriptAt (states.modify a f) id).TracksTogether := by
  rcases scriptAt_modify_cases states a f id with heq | ⟨hactor, heq⟩
  · rwa [heq]
  · rw [heq]
    refine hf hactor _ ?_
    rw [← hactor]
    exact hs

theorem tracksTogether_killActor {s t : Scene} {a : Nat}
    (hs : (scriptAt s.states id).TracksTogether) (h : s.killActor a = .ok t) :
    (scriptAt t.states id).TracksTogether := by
  unfold killActor at h
  split at h
  · cases h
    refine tracksTogether_modify hs a fun _ b hb => ?_
    cases hkind : id.kind <;> rw [hkind] at hb <;> exact hb.congr rfl rfl
  · cases h

/-- Reviving an actor leaves the position of its track alone, and no track. -/
theorem track_reviveActor {s t : Scene} {a : Nat} (h : s.reviveActor a = .ok t) :
    (scriptAt t.states (.move a)).trackOffset = (scriptAt s.states (.move a)).trackOffset ∧
      (a < s.states.size → (scriptAt t.states (.move a)).track = none) := by
  unfold reviveActor at h
  split at h
  · cases h
  · cases h
    simp only [scriptAt, ScriptId.move, Array.getD_eq_getD_getElem?, Array.getElem?_modify, if_true]
    cases hstate : s.states[a]? with
    | none => exact ⟨rfl, fun hlt => absurd hstate (by simp [hlt])⟩
    | some old => exact ⟨rfl, fun _ => rfl⟩

/-- **Reviving parts the notes** exactly if a position is remembered. -/
theorem tracksTogether_reviveActor_iff {s t : Scene} {a : Nat} (h : s.reviveActor a = .ok t) :
    (scriptAt t.states (.move a)).TracksTogether ↔
      (scriptAt s.states (.move a)).trackOffset = none := by
  obtain ⟨hoffset, htrack⟩ := track_reviveActor h
  rw [ScriptState.TracksTogether, hoffset]
  constructor
  · intro hboth
    rcases Nat.lt_or_ge a s.states.size with hlt | hge
    · exact hboth (htrack hlt)
    · simp [scriptAt, ScriptId.move, Array.getD_eq_getD_getElem?, Array.getElem?_eq_none hge,
        ActorState.get]
  · exact fun hnone _ => hnone

/-- Reviving another actor keeps the notes of a move script together. -/
theorem tracksTogether_reviveActor_of_ne {s t : Scene} {a b : Nat} (hne : b ≠ a)
    (hs : (scriptAt s.states (.move a)).TracksTogether) (h : s.reviveActor b = .ok t) :
    (scriptAt t.states (.move a)).TracksTogether := by
  unfold reviveActor at h
  split at h
  · cases h
  · cases h
    exact tracksTogether_modify hs b fun hactor => absurd hactor.symm hne

end Scene

end

/-- The scenes that operations lead to from a compiled scene, with games that leave the states of
their callers alone and snapshots of the scene itself, where the actor `a` is revived only while no
position of a track is remembered for it. -/
inductive Scene.TrackHistory (source : SceneSource) (config : Config) (a : Nat) : Scene → Prop
  | compiled : TrackHistory source config a (ofCompiled (compileScene .standard source) config)
  | runFrame {σ : Type} {s : Scene} {host : Host σ} (h : σ) (time : FrameTime) :
      TrackHistory source config a s → host.Keeps →
      TrackHistory source config a (s.runFrame host h time).2.1
  | runScript {σ : Type} {s : Scene} {host : Host σ} (h : σ) (id : ScriptId) (time : FrameTime) :
      TrackHistory source config a s → host.Keeps →
      TrackHistory source config a (s.runScript host h id time).scene
  | killActor {s t : Scene} {b : Nat} : TrackHistory source config a s →
      s.killActor b = .ok t → TrackHistory source config a t
  | reviveActor {s t : Scene} {b : Nat} : TrackHistory source config a s →
      (b = a → (scriptAt s.states (.move a)).trackOffset = none) →
      s.reviveActor b = .ok t → TrackHistory source config a t
  | restore {s t u : Scene} : TrackHistory source config a s → TrackHistory source config a t →
      s.restore t.snapshot = .ok u → TrackHistory source config a u

namespace Scene

variable {source : SceneSource} {config : Config} {a : Nat} {s : Scene}

/-- Such a history is one of those that operations can make. -/
theorem TrackHistory.reachable (h : s.TrackHistory source config a) :
    Reachable Host.Keeps source config s := by
  induction h with
  | compiled => exact .compiled
  | runFrame h time _ hhost ih => exact .runFrame h time ih hhost
  | runScript h id time _ hhost ih => exact .runScript h id time ih hhost
  | killActor _ hkill ih => exact .killActor ih hkill
  | reviveActor _ _ hrevive ih => exact .reviveActor ih hrevive
  | restore _ _ hrestore ihs iht => exact .restore ihs iht hrestore

theorem initialState_tracksTogether (p : Program) : p.initialState.TracksTogether := by
  unfold Program.initialState
  split <;> exact fun _ => rfl

theorem tracksTogether_ofCompiled (source : SceneSource) (config : Config) (id : ScriptId) :
    (scriptAt (ofCompiled (compileScene .standard source) config).states id).TracksTogether := by
  simp only [scriptAt, ofCompiled, Array.getD_eq_getD_getElem?, Array.getElem?_map,
    SceneSource.getElem?_compileScene_actors]
  cases (source.parsed .standard)[id.actor]? with
  | none => cases id.kind <;> exact fun _ => rfl
  | some parsed => cases id.kind <;> exact initialState_tracksTogether _

theorem TrackHistory.tracksTogether (h : s.TrackHistory source config a) :
    (scriptAt s.states (.move a)).TracksTogether := by
  induction h with
  | compiled => exact tracksTogether_ofCompiled source config (.move a)
  | runFrame h time _ hhost ih => exact tracksTogether_runFrame hhost ih h time
  | runScript h id time _ hhost ih => exact tracksTogether_runScript hhost ih h id time
  | killActor _ hkill ih => exact tracksTogether_killActor ih hkill
  | @reviveActor s t b _ hclear hrevive ih =>
      by_cases hb : b = a
      · subst hb
        exact (tracksTogether_reviveActor_iff hrevive).mpr (hclear rfl)
      · exact tracksTogether_reviveActor_of_ne hb ih hrevive
  | restore _ _ hrestore _ iht =>
      unfold Scene.restore at hrestore
      split at hrestore
      · cases hrestore
        simpa [snapshot] using iht
      · cases hrestore

/-- **No active track means no remembered position**, in every scene that a history leads to in which
the actor was revived only while no position was remembered for it. So stopping the move script and
restoring its last track ends the script as long as no track is active. Reviving the actor parts the
two exactly if a position is remembered then. -/
theorem tracksTogether_of_history (h : s.TrackHistory source config a) :
    let moves := scriptAt s.states (.move a)
    (moves.track = none → moves.trackOffset = none ∧
      (Step.restoreTrack (Step.stopTrack moves)).reentry = none) ∧
    ∀ t, s.reviveActor a = .ok t →
      (((scriptAt t.states (.move a)).track = none →
        (scriptAt t.states (.move a)).trackOffset = none) ↔ moves.trackOffset = none) := by
  have htogether := h.tracksTogether
  refine ⟨?_, ?_⟩
  · exact fun hnone => ⟨htogether hnone, htogether.reentry_restoreTrack hnone⟩
  · exact fun t hrevive => tracksTogether_reviveActor_iff hrevive

/-- A change that is not refused is made. -/
theorem eq_ok_attempt {σ : Type} {change : Except Fault Scene} (hok : change.isOk = true) (h : σ) :
    change = .ok (s.attempt h change).2.1 := by
  cases change with
  | ok t => rfl
  | error fault => cases hok

/-- An actor that is killed and revived before its move script has come to its track. -/
theorem tracksTogether_of_history_early :
    let source : SceneSource :=
      { actors := [{ life := [0x2A, 0x2B, 0x00], moves := [0x01, 0x09, 7, 0x0B] }] }
    let s := ofCompiled (compileScene .standard source) {}
    let killed := (s.serve () (.kill 0)).2.1
    let revived := (killed.serve () (.revive 0)).2.1
    let moves := scriptAt revived.states (.move 0)
    moves.track = none ∧ moves.trackOffset = none ∧
      (Step.restoreTrack (Step.stopTrack moves)).reentry = none := by
  intro source s killed revived moves
  have hs : s.TrackHistory source {} 0 := .compiled
  have hkill : s.killActor 0 = .ok killed := eq_ok_attempt (by decide +kernel) ()
  have hrevive : killed.reviveActor 0 = .ok revived := eq_ok_attempt (by decide +kernel) ()
  have hclear : (scriptAt killed.states (.move 0)).trackOffset = none := by decide +kernel
  have hrevived : revived.TrackHistory source {} 0 :=
    .reviveActor (.killActor hs hkill) (fun _ => hclear) hrevive
  have htrack : moves.track = none := by decide +kernel
  exact ⟨htrack, (tracksTogether_of_history hrevived).1 htrack⟩

/-- An actor that is killed and revived behind its track: the position of the track outlives both, and
the life script, which stops the move script and restores its last track before one is active again,
sends it to the track of the earlier life. -/
theorem tracksTogether_revived :
    let source : SceneSource :=
      { actors := [{ life := [0x2A, 0x2B, 0x00], moves := [0x01, 0x09, 7, 0x0B] }] }
    let s := ofCompiled (compileScene .standard source) {}
    let moved := (s.runScript .quiet () (.move 0) {}).scene
    let revived := ((moved.serve () (.kill 0)).2.1.serve () (.revive 0)).2.1
    let last := (revived.runScript .quiet () (.life 0) {}).scene
    Reachable Host.Keeps source {} revived ∧
      (scriptAt revived.states (.move 0)).track = none ∧
      (scriptAt revived.states (.move 0)).trackOffset = some 1 ∧
      (scriptAt last.states (.move 0)).track = none ∧
      (scriptAt last.states (.move 0)).reentry = some 1 := by
  intro source s moved revived last
  have hkeeps : Host.quiet.Keeps := fun _ _ => rfl
  have hmoved : Reachable Host.Keeps source {} moved := .runScript () (.move 0) {} .compiled hkeeps
  have hkill : moved.killActor 0 = .ok (moved.serve () (.kill 0)).2.1 :=
    eq_ok_attempt (by decide +kernel) ()
  have hrevive : (moved.serve () (.kill 0)).2.1.reviveActor 0 = .ok revived :=
    eq_ok_attempt (by decide +kernel) ()
  refine ⟨.reviveActor (.killActor hmoved hkill) hrevive, ?_⟩
  decide +kernel

end Scene

end SceneScript
