import SceneScript.Proofs.Exchanges

/-! # Histories and snapshots

A scene in play is asked for one thing after the other. Restoring a snapshot makes it forget all of
this: scenes that were set up alike and have since gone through different things cannot be told apart
after the same snapshot has been restored in both.

* `Request`, `Scene.serve`, `Scene.play`: what can be asked of a scene, and a history of it.
* `Scene.Unseen`, `Scene.Aside`: a change to a scene that its runs, and the requests besides runs, do
  not see; `play_map`: what holds of every request then holds of a history.
* `Scene.blank`: what nothing that is asked changes (`blank_serve`, `blank_play`).
* `Scene.unlogged`: what everything that is asked depends on (`serve_same`, `play_same`).
* `Scene.restore_erases`: a snapshot leaves nothing of a scene but its blank. -/

namespace SceneScript

/-! ### Histories -/

/-- Something asked of a scene in play. -/
inductive Request (σ : Type) where
  | frame (host : Host σ) (time : FrameTime)
  | script (host : Host σ) (id : ScriptId) (time : FrameTime)
  | kill (actor : Nat)
  | revive (actor : Nat)
  | restore (x : Snapshot)

/-- What a request comes to. -/
inductive Answer where
  | frame (report : FrameReport)
  | script (result : Except Fault Nat) (visited : List Nat)
  | done (result : Except Fault Unit)

/-- The same request, with games that answer alike. -/
inductive Request.Alike {σ τ : Type} (R : σ → τ → Prop) : Request σ → Request τ → Prop
  | frame {A : Host σ} {B : Host τ} (hosts : A.Alike B R) (time : FrameTime) :
      Alike R (.frame A time) (.frame B time)
  | script {A : Host σ} {B : Host τ} (hosts : A.Alike B R) (id : ScriptId) (time : FrameTime) :
      Alike R (.script A id time) (.script B id time)
  | kill (actor : Nat) : Alike R (.kill actor) (.kill actor)
  | revive (actor : Nat) : Alike R (.revive actor) (.revive actor)
  | restore (x : Snapshot) : Alike R (.restore x) (.restore x)

namespace Scene

variable {σ τ : Type} {R : σ → τ → Prop}

/-- A change of the scene that may be refused, and then does nothing. -/
def attempt (s : Scene) (h : σ) : Except Fault Scene → Answer × Scene × σ
  | .ok t => (.done (.ok ()), t, h)
  | .error fault => (.done (.error fault), s, h)

/-- Do what is asked. -/
def serve (s : Scene) (h : σ) : Request σ → Answer × Scene × σ
  | .frame host time =>
    let (report, t, g) := s.runFrame host h time
    (.frame report, t, g)
  | .script host id time =>
    let o := s.runScript host h id time
    (.script o.result o.visited, o.scene, o.host)
  | .kill actor => s.attempt h (s.killActor actor)
  | .revive actor => s.attempt h (s.reviveActor actor)
  | .restore x => s.attempt h (s.restore x)

/-- Do all that is asked, in turn: what each request comes to, with a snapshot taken after it, and
the scene and the state of the game in the end. -/
def play (s : Scene) (h : σ) : List (Request σ) → List (Answer × Snapshot) × Scene × σ
  | [] => ([], s, h)
  | request :: rest =>
    let (answer, t, g) := s.serve h request
    let (later, last) := t.play g rest
    ((answer, t.snapshot) :: later, last)

/-! ### Changes that do not show -/

/-- What comes of a run, in a scene that is changed. -/
def Outcome.mapScene (f : Scene → Scene) (o : Outcome σ) : Outcome σ :=
  { o with scene := f o.scene }

/-- A frame under way, in a scene that is changed. -/
def FrameProgress.mapScene (f : Scene → Scene) (p : FrameProgress σ) : FrameProgress σ :=
  { p with scene := f p.scene }

/-- Changing the scenes that satisfy `P` does not show in the runs of their scripts: what comes of a
run is the same, in a scene that is changed. -/
structure Unseen (P : Scene → Prop) (f : Scene → Scene) : Prop where
  keeps : ∀ {σ : Type} {s : Scene} (host : Host σ) (h : σ) (id : ScriptId) (time : FrameTime),
    P s → P (s.runScript host h id time).scene
  run : ∀ {σ : Type} {s : Scene} (host : Host σ) (h : σ) (id : ScriptId) (time : FrameTime),
    P s → (f s).runScript host h id time = (s.runScript host h id time).mapScene f
  visit : ∀ (s : Scene) (id : ScriptId) (visited : List Nat),
    (f s).visit? id visited = s.visit? id visited

/-- Then it does not show in what a frame gathers from the runs of its scripts. -/
theorem Unseen.foldl {P : Scene → Prop} {f : Scene → Scene} (hf : Unseen P f) (host : Host σ)
    (time : FrameTime) (ids : List ScriptId) {p : FrameProgress σ} (hp : P p.scene) :
    ids.foldl (fun p id => p.run host time id) (p.mapScene f) =
      (ids.foldl (fun p id => p.run host time id) p).mapScene f := by
  induction ids generalizing p with
  | nil => rfl
  | cons id ids ih =>
      have hrun : (p.mapScene f).run host time id = (p.run host time id).mapScene f := by
        have houtcome := hf.run host p.host id time hp
        unfold FrameProgress.run FrameProgress.mapScene
        simp only [houtcome, Outcome.mapScene, hf.visit]
      have hnext : P (p.run host time id).scene := hf.keeps host p.host id time hp
      rw [List.foldl_cons, List.foldl_cons, hrun, ih hnext]

/-- A change of scenes that has to do with nothing that happens in play: it can be made before or
after. -/
structure Aside (f : Scene → Scene) : Prop where
  fingerprint : ∀ s : Scene, (f s).fingerprint = s.fingerprint
  states : ∀ s : Scene, (f s).states = s.states
  memory : ∀ s : Scene, (f s).memory = s.memory
  frame : ∀ s : Scene, (f s).frame = s.frame
  update : ∀ (s : Scene) (states : Array ActorState) (memory : Array ActorMemory) (frame : UInt64),
    f { s with states, memory, frame } = { f s with states, memory, frame }

namespace Aside

variable {f : Scene → Scene}

theorem setStates (hf : Aside f) (s : Scene) (states : Array ActorState) :
    { f s with states } = f { s with states } := by
  have hupdate := hf.update s states s.memory s.frame
  simp only [hupdate, hf.memory, hf.frame]

theorem killActor (hf : Aside f) (s : Scene) (actor : Nat) :
    (f s).killActor actor = (s.killActor actor).map f := by
  unfold Scene.killActor actorCount
  rw [hf.states]
  split
  · exact congrArg Except.ok (hf.setStates s _)
  · rfl

theorem reviveActor (hf : Aside f) {s : Scene} (hprograms : (f s).programs = s.programs)
    (actor : Nat) : (f s).reviveActor actor = (s.reviveActor actor).map f := by
  have hactor : (f s).programs[actor]? = s.programs[actor]? := by rw [hprograms]
  unfold Scene.reviveActor
  rw [hactor, hf.states]
  cases s.programs[actor]? with
  | none => rfl
  | some programs => exact congrArg Except.ok (hf.setStates s _)

theorem restore (hf : Aside f) (s : Scene) (x : Snapshot) :
    (f s).restore x = (s.restore x).map f := by
  have hfits : (x.fingerprint = (f s).fingerprint ∧ x.actors.length = (f s).actorCount) ↔
      x.fingerprint = s.fingerprint ∧ x.actors.length = s.actorCount := by
    rw [hf.fingerprint, actorCount, hf.states, actorCount]
  unfold Scene.restore
  rw [hf.memory]
  by_cases h : x.fingerprint = s.fingerprint ∧ x.actors.length = s.actorCount
  · rw [if_pos h, if_pos (hfits.mpr h)]
    exact congrArg Except.ok (hf.update s _ _ _).symm
  · rw [if_neg h, if_neg (fun h' => h (hfits.mp h'))]
    rfl

end Aside

theorem attempt_map (f : Scene → Scene) (s : Scene) (h : σ) (change : Except Fault Scene) :
    (f s).attempt h (change.map f) =
      let (answer, t, g) := s.attempt h change
      (answer, f t, g) := by
  cases change <;> rfl

/-- What does not show in what comes of a request does not show in a history. -/
theorem play_map {P : Scene → Prop} {f : Scene → Scene}
    (hsnapshot : ∀ s : Scene, (f s).snapshot = s.snapshot)
    (hkeeps : ∀ {s : Scene} (h : σ) (request : Request σ), P s → P (s.serve h request).2.1)
    (hserve : ∀ {s : Scene} (h : σ) (request : Request σ), P s → (f s).serve h request =
      let (answer, t, g) := s.serve h request
      (answer, f t, g))
    {s : Scene} (hs : P s) (h : σ) (requests : List (Request σ)) :
    (f s).play h requests =
      let (answers, t, g) := s.play h requests
      (answers, f t, g) := by
  induction requests generalizing s h with
  | nil => rfl
  | cons request rest ih =>
      have hrest := ih (hkeeps h request hs) (s.serve h request).2.2
      unfold play
      rw [hserve h request hs]
      simp only
      rw [hrest, hsnapshot]

/-! ### What no request changes -/

/-- The scene without its diagnostics and trace. -/
def unlogged (s : Scene) : Scene := { s with diagnostics := .empty, trace := none }

/-- The scene without anything that happens in play: the states and scratch records of its actors
are wiped, only their numbers are left. -/
def blank (s : Scene) : Scene :=
  { s.unlogged with
    states := .replicate s.states.size {}
    memory := .replicate s.memory.size {}
    frame := 0 }

/-- Two scenes have the same blank if they agree on what is not wiped. -/
theorem blank_congr {s t : Scene} (hindex : t.index = s.index)
    (hfingerprint : t.fingerprint = s.fingerprint) (hprograms : t.programs = s.programs)
    (hconfig : t.config = s.config) (hstates : t.states.size = s.states.size)
    (hmemory : t.memory.size = s.memory.size) : t.blank = s.blank := by
  simp only [blank, unlogged, hindex, hfingerprint, hprograms, hconfig, hstates, hmemory]

theorem blank_runScript (s : Scene) (host : Host σ) (h : σ) (id : ScriptId) (time : FrameTime) :
    (s.runScript host h id time).scene.blank = s.blank := by
  have hmemory : (s.runScript host h id time).scene.memory.size = s.memory.size := by
    rcases memory_runScript s host h id time with hm | ⟨m, hm⟩ <;> simp [hm]
  refine blank_congr ?_ ?_ (programs_runScript s host h id time) (config_runScript s host h id time)
    (size_runScript s host h id time) hmemory
  all_goals
    cases hp : s.program? id with
    | none => simp [runScript, hp]
    | some program =>
        rw [runScript_eq_outcome hp]
        unfold outcome
        split <;> rfl

theorem blank_foldl (host : Host σ) (time : FrameTime) (ids : List ScriptId)
    (p : FrameProgress σ) :
    (ids.foldl (fun p id => p.run host time id) p).scene.blank = p.scene.blank := by
  induction ids generalizing p with
  | nil => rfl
  | cons id ids ih => rw [List.foldl_cons, ih, FrameProgress.run, blank_runScript]

theorem blank_runFrame (s : Scene) (host : Host σ) (h : σ) (time : FrameTime) :
    (s.runFrame host h time).2.1.blank = s.blank :=
  blank_foldl host time s.scripts ⟨{ s with frame := s.frame + 1 }, h, { frame := s.frame + 1 }, []⟩

theorem blank_killActor {s t : Scene} {actor : Nat} (h : s.killActor actor = .ok t) :
    t.blank = s.blank := by
  unfold killActor at h
  split at h
  · cases h
    exact blank_congr rfl rfl rfl rfl Array.size_modify rfl
  · cases h

theorem blank_reviveActor {s t : Scene} {actor : Nat} (h : s.reviveActor actor = .ok t) :
    t.blank = s.blank := by
  unfold reviveActor at h
  split at h
  · cases h
  · cases h
    exact blank_congr rfl rfl rfl rfl Array.size_modify rfl

theorem blank_restore {s t : Scene} {x : Snapshot} (h : s.restore x = .ok t) :
    t.blank = s.blank := by
  unfold restore at h
  split at h
  · next hfits =>
      cases h
      exact blank_congr rfl rfl rfl rfl hfits.2 Array.size_map
  · cases h

theorem blank_attempt {s : Scene} {change : Except Fault Scene}
    (hchange : ∀ {t}, change = .ok t → t.blank = s.blank) (h : σ) :
    (s.attempt h change).2.1.blank = s.blank := by
  cases change with
  | ok t => exact hchange rfl
  | error fault => rfl

/-- **No request changes the blank of a scene.** -/
theorem blank_serve (s : Scene) (h : σ) (request : Request σ) :
    (s.serve h request).2.1.blank = s.blank := by
  cases request with
  | frame host time => exact blank_runFrame s host h time
  | script host id time => exact blank_runScript s host h id time
  | kill actor => exact blank_attempt blank_killActor h
  | revive actor => exact blank_attempt blank_reviveActor h
  | restore x => exact blank_attempt blank_restore h

theorem blank_play (s : Scene) (h : σ) (requests : List (Request σ)) :
    (s.play h requests).2.1.blank = s.blank := by
  induction requests generalizing s h with
  | nil => rfl
  | cons request rest ih =>
      exact (ih (s.serve h request).2.1 (s.serve h request).2.2).trans (blank_serve s h request)

/-! ### What requests depend on -/

theorem runScript_unlogged (s : Scene) (host : Host σ) (h : σ) (id : ScriptId) (time : FrameTime) :
    let o := s.runScript host h id time
    let u := s.unlogged.runScript host h id time
    o.result = u.result ∧ o.visited = u.visited ∧ o.scene.unlogged = u.scene.unlogged ∧
      o.host = u.host := by
  cases hp : s.program? id with
  | none =>
      have hp' : s.unlogged.program? id = none := hp
      simp only [runScript, hp, hp']
      exact ⟨trivial, trivial, rfl, trivial⟩
  | some program =>
      have hu : s.unlogged.runScript host h id time = s.unlogged.outcome id
          (Run.start (s.context host id program time) (s.ready h id)) :=
        runScript_eq_outcome (s := s.unlogged) hp host h time
      rw [runScript_eq_outcome hp, hu]
      rcases Run.start (s.context host id program time) (s.ready h id) with ⟨fault | u, r⟩
      · exact ⟨rfl, rfl, rfl, rfl⟩
      · exact ⟨rfl, rfl, rfl, rfl⟩

/-- Running a script depends on no log, and on the answers of the game only. -/
theorem runScript_same {s t : Scene} (hs : s.unlogged = t.unlogged) {A : Host σ} {B : Host τ}
    (hosts : A.Alike B R) {h : σ} {g : τ} (hR : R h g) (id : ScriptId) (time : FrameTime) :
    let o := s.runScript A h id time
    let u := t.runScript B g id time
    o.result = u.result ∧ o.visited = u.visited ∧ o.scene.unlogged = u.scene.unlogged ∧
      R o.host u.host := by
  obtain ⟨hresult, hvisited, hscene, hhost⟩ := s.runScript_unlogged A h id time
  obtain ⟨hresult', hvisited', hscene', hhost'⟩ := t.runScript_unlogged B g id time
  rw [← hs] at hresult' hvisited' hscene' hhost'
  obtain ⟨hresults, hvisiteds, hscenes, hhosts⟩ := runScript_alike hosts hR s.unlogged id time
  dsimp only
  rw [hresult, hvisited, hscene, hhost, hresult', hvisited', hscene', hhost']
  exact ⟨hresults, hvisiteds, congrArg unlogged hscenes, hhosts⟩

/-- Two frames under way that differ in their games and in what is logged only. -/
structure FrameProgress.Alike (R : σ → τ → Prop) (p : FrameProgress σ) (q : FrameProgress τ) :
    Prop where
  scene : p.scene.unlogged = q.scene.unlogged
  host : R p.host q.host
  report : p.report = q.report
  visits : p.visits = q.visits

theorem FrameProgress.Alike.run {p : FrameProgress σ} {q : FrameProgress τ}
    (h : FrameProgress.Alike R p q) {A : Host σ} {B : Host τ} (hosts : A.Alike B R)
    (time : FrameTime) (id : ScriptId) :
    FrameProgress.Alike R (p.run A time id) (q.run B time id) := by
  obtain ⟨hresult, hvisited, hscene, hhost⟩ := runScript_same h.scene hosts h.host id time
  have hvisit : ∀ visited, (p.scene.runScript A p.host id time).scene.visit? id visited =
      (q.scene.runScript B q.host id time).scene.visit? id visited := by
    intro visited
    change (p.scene.runScript A p.host id time).scene.unlogged.visit? id visited =
      (q.scene.runScript B q.host id time).scene.unlogged.visit? id visited
    rw [hscene]
  unfold FrameProgress.run
  refine ⟨hscene, hhost, ?_, ?_⟩
  · simp only [hresult, h.report]
  · simp only [hvisited, hvisit, h.visits]

theorem FrameProgress.Alike.foldl {A : Host σ} {B : Host τ} (hosts : A.Alike B R)
    (time : FrameTime) (ids : List ScriptId) {p : FrameProgress σ} {q : FrameProgress τ}
    (h : FrameProgress.Alike R p q) :
    FrameProgress.Alike R (ids.foldl (fun p id => p.run A time id) p)
      (ids.foldl (fun q id => q.run B time id) q) := by
  induction ids generalizing p q with
  | nil => exact h
  | cons id ids ih => exact ih (h.run hosts time id)

/-- Running a frame depends on no log, and on the answers of the game only. -/
theorem runFrame_same {s t : Scene} (hs : s.unlogged = t.unlogged) {A : Host σ} {B : Host τ}
    (hosts : A.Alike B R) {h : σ} {g : τ} (hR : R h g) (time : FrameTime) :
    (s.runFrame A h time).1 = (t.runFrame B g time).1 ∧
      (s.runFrame A h time).2.1.unlogged = (t.runFrame B g time).2.1.unlogged ∧
      R (s.runFrame A h time).2.2 (t.runFrame B g time).2.2 := by
  have hscripts : s.scripts = t.scripts :=
    show s.unlogged.scripts = t.unlogged.scripts by rw [hs]
  have hframe : s.frame = t.frame := show s.unlogged.frame = t.unlogged.frame by rw [hs]
  have hstart : FrameProgress.Alike R
      ⟨{ s with frame := s.frame + 1 }, h, { frame := s.frame + 1 }, []⟩
      ⟨{ t with frame := t.frame + 1 }, g, { frame := t.frame + 1 }, []⟩ := by
    refine ⟨?_, hR, ?_, rfl⟩
    · exact congrArg (fun u : Scene => { u with frame := u.frame + 1 }) hs
    · rw [hframe]
  have hdone := hstart.foldl hosts time s.scripts
  unfold runFrame
  rw [← hscripts]
  exact ⟨hdone.report, hdone.scene, hdone.host⟩

theorem aside_unlogged : Aside unlogged := by
  constructor <;> intros <;> rfl

theorem attempt_same {s t : Scene} (hs : s.unlogged = t.unlogged)
    {change change' : Except Fault Scene} (hchange : change.map unlogged = change'.map unlogged)
    {h : σ} {g : τ} (hR : R h g) :
    (s.attempt h change).1 = (t.attempt g change').1 ∧
      (s.attempt h change).2.1.unlogged = (t.attempt g change').2.1.unlogged ∧
      R (s.attempt h change).2.2 (t.attempt g change').2.2 := by
  cases change with
  | ok u =>
      cases change' with
      | ok v => exact ⟨rfl, Except.ok.inj hchange, hR⟩
      | error fault => cases hchange
  | error fault =>
      cases change' with
      | ok v => cases hchange
      | error fault' =>
          cases hchange
          exact ⟨rfl, hs, hR⟩

/-- **What comes of a request** depends on no log, and on the answers of the game only. -/
theorem serve_same {s t : Scene} (hs : s.unlogged = t.unlogged) {h : σ} {g : τ} (hR : R h g)
    {request : Request σ} {request' : Request τ} (hrequest : request.Alike R request') :
    (s.serve h request).1 = (t.serve g request').1 ∧
      (s.serve h request).2.1.unlogged = (t.serve g request').2.1.unlogged ∧
      R (s.serve h request).2.2 (t.serve g request').2.2 := by
  cases hrequest with
  | frame hosts time =>
      obtain ⟨hreport, hscene, hhost⟩ := runFrame_same hs hosts hR time
      exact ⟨congrArg Answer.frame hreport, hscene, hhost⟩
  | script hosts id time =>
      obtain ⟨hresult, hvisited, hscene, hhost⟩ := runScript_same hs hosts hR id time
      exact ⟨congrArg₂ Answer.script hresult hvisited, hscene, hhost⟩
  | kill actor =>
      refine attempt_same hs ?_ hR
      rw [← aside_unlogged.killActor, hs, aside_unlogged.killActor]
  | revive actor =>
      refine attempt_same hs ?_ hR
      rw [← aside_unlogged.reviveActor rfl, hs, aside_unlogged.reviveActor rfl]
  | restore x =>
      refine attempt_same hs ?_ hR
      rw [← aside_unlogged.restore, hs, aside_unlogged.restore]

theorem snapshot_same {s t : Scene} (hs : s.unlogged = t.unlogged) : s.snapshot = t.snapshot := by
  change s.unlogged.snapshot = t.unlogged.snapshot
  rw [hs]

/-- **A history** depends on no log, and on the answers of the games only. -/
theorem play_same {s t : Scene} (hs : s.unlogged = t.unlogged) {h : σ} {g : τ} (hR : R h g)
    {requests : List (Request σ)} {requests' : List (Request τ)}
    (hrequests : List.Forall₂ (Request.Alike R) requests requests') :
    (s.play h requests).1 = (t.play g requests').1 ∧
      (s.play h requests).2.1.unlogged = (t.play g requests').2.1.unlogged ∧
      R (s.play h requests).2.2 (t.play g requests').2.2 := by
  induction hrequests generalizing s t h g with
  | nil => exact ⟨rfl, hs, hR⟩
  | cons hrequest _ ih =>
      obtain ⟨hanswer, hscene, hhost⟩ := serve_same hs hR hrequest
      obtain ⟨hanswers, hlast⟩ := ih hscene hhost
      refine ⟨?_, hlast⟩
      exact congrArg₂ List.cons (Prod.ext hanswer (snapshot_same hscene)) hanswers

/-! ### Restoring -/

/-- A snapshot fits a scene if it was taken of the same scripts and has as many actors. -/
theorem restore_eq_ok_iff {s u : Scene} {x : Snapshot} : s.restore x = .ok u ↔
    (x.fingerprint = s.fingerprint ∧ x.actors.length = s.states.size) ∧
      u = { s with
        states := x.actors.toArray
        memory := s.memory.map fun _ => {}
        frame := x.frame } := by
  unfold restore actorCount
  split
  · next hfits =>
      rw [Except.ok.injEq]
      exact ⟨fun h => ⟨hfits, h.symm⟩, fun h => h.2.symm⟩
  · next hfits => simp [hfits]

theorem exists_restore_iff {s : Scene} {x : Snapshot} : (∃ u, s.restore x = .ok u) ↔
    x.fingerprint = s.fingerprint ∧ x.actors.length = s.states.size := by
  constructor
  · rintro ⟨u, h⟩
    exact (restore_eq_ok_iff.mp h).1
  · intro hfits
    exact ⟨_, restore_eq_ok_iff.mpr ⟨hfits, rfl⟩⟩

/-- A snapshot leaves nothing of a scene but its blank. -/
theorem unlogged_of_restore {s u : Scene} {x : Snapshot} (h : s.restore x = .ok u) :
    u.unlogged = { s.blank with states := x.actors.toArray, frame := x.frame } := by
  obtain ⟨-, rfl⟩ := restore_eq_ok_iff.mp h
  simp [unlogged, blank, Array.map_const']

theorem callState_of_restore {s u : Scene} {x : Snapshot} (h : s.restore x = .ok u) (id : ScriptId)
    (k : Nat) : (u.scratch id).callState k = {} := by
  obtain ⟨-, rfl⟩ := restore_eq_ok_iff.mp h
  have hrecords : (s.memory.map fun _ => ({} : ActorMemory)).getD id.actor {} = {} := by
    rw [Array.getD_eq_getD_getElem?, Array.getElem?_map]
    cases s.memory[id.actor]? <;> rfl
  rw [scratch, hrecords]
  cases id.kind <;> rfl

/-- **Restoring a snapshot erases the past.** Set a compiled scene up twice and let the two go through
any histories, with any games. A snapshot then fits both or neither: it has to be of the same scripts,
with as many actors. One that does not fit changes nothing. One that fits leaves in both its own
states and frame number and fresh scratch records, and whatever is asked of the two from then on,
with games that answer alike, comes to the same: every report, number of steps and fault, and every
snapshot taken on the way. -/
theorem restore_erases (c : CompiledScene) (config : Config) (h : σ) (past : List (Request σ))
    (g : τ) (other : List (Request τ)) (x : Snapshot) :
    let s := ((ofCompiled c config).play h past).2.1
    let t := ((ofCompiled c config).play g other).2.1
    ((∃ u, s.restore x = .ok u) ↔
      x.fingerprint = c.fingerprint ∧ x.actors.length = c.actors.size) ∧
    ((∃ v, t.restore x = .ok v) ↔
      x.fingerprint = c.fingerprint ∧ x.actors.length = c.actors.size) ∧
    (∀ fault, s.restore x = .error fault →
      ∀ {ρ : Type} (e : ρ), s.serve e (.restore x) = (.done (.error fault), s, e)) ∧
    ∀ u v, s.restore x = .ok u → t.restore x = .ok v →
      (u.states.toList = x.actors ∧ u.frame = x.frame ∧ ∀ id k, (u.scratch id).callState k = {}) ∧
      (v.states.toList = x.actors ∧ v.frame = x.frame ∧ ∀ id k, (v.scratch id).callState k = {}) ∧
      ∀ {ρ π : Type} {R : ρ → π → Prop} {e : ρ} {f : π}, R e f →
        ∀ {requests : List (Request ρ)} {requests' : List (Request π)},
          List.Forall₂ (Request.Alike R) requests requests' →
          (u.play e requests).1 = (v.play f requests').1 ∧
            R (u.play e requests).2.2 (v.play f requests').2.2 := by
  intro s t
  have hblank : s.blank = (ofCompiled c config).blank := blank_play _ h past
  have hblank' : t.blank = (ofCompiled c config).blank := blank_play _ g other
  have hfits : ∀ {u : Scene}, u.blank = (ofCompiled c config).blank →
      u.fingerprint = c.fingerprint ∧ u.states.size = c.actors.size := by
    intro u hu
    have hsize : u.blank.states.size = (ofCompiled c config).blank.states.size := by rw [hu]
    have hsetup : (ofCompiled c config).states.size = c.actors.size := Array.size_map
    refine ⟨show u.blank.fingerprint = _ by rw [hu]; rfl, ?_⟩
    rwa [blank, blank, Array.size_replicate, Array.size_replicate, hsetup] at hsize
  refine ⟨?_, ?_, ?_, ?_⟩
  · rw [exists_restore_iff, (hfits hblank).1, (hfits hblank).2]
  · rw [exists_restore_iff, (hfits hblank').1, (hfits hblank').2]
  · intro fault hfault ρ e
    rw [serve, hfault, attempt]
  · intro u v hu hv
    have hstates : ∀ {w z : Scene}, w.restore x = .ok z → z.states.toList = x.actors ∧
        z.frame = x.frame ∧ ∀ id k, (z.scratch id).callState k = {} := by
      intro w z hz
      refine ⟨?_, ?_, callState_of_restore hz⟩
      all_goals
        obtain ⟨-, rfl⟩ := restore_eq_ok_iff.mp hz
        rfl
    refine ⟨hstates hu, hstates hv, ?_⟩
    have hsame : u.unlogged = v.unlogged := by
      rw [unlogged_of_restore hu, unlogged_of_restore hv, hblank, hblank']
    intro ρ π R e f hR requests requests' hrequests
    obtain ⟨hanswers, -, hhosts⟩ := play_same hsame hR hrequests
    exact ⟨hanswers, hhosts⟩

/-- One scene is waiting in its second instruction and the other has no running script any more. A
snapshot from before sets both back, and their next frames are alike at any time. -/
theorem restore_erases_waiting :
    let source : SceneSource := { actors := [{ moves := [0x09, 3, 0x12, 5, 0, 0, 0, 0, 0x0B] }] }
    let c := compileScene .standard source
    let x := (ofCompiled c {}).snapshot
    let s := ((ofCompiled c {}).play () [.frame .quiet {}]).2.1
    let t := ((ofCompiled c {}).play () [.kill 0]).2.1
    ((s.scratch (.move 0)).callState 1).deadline.isSome = true ∧
      (scriptAt t.states (.move 0)).reentry = none ∧
      ∃ u v, s.restore x = .ok u ∧ t.restore x = .ok v ∧
        ∀ time, (u.play () [.frame .quiet time]).1 = (v.play () [.frame .quiet time]).1 := by
  intro source c x s t
  obtain ⟨hs, ht, -, hboth⟩ :=
    restore_erases c {} () [.frame .quiet {}] () [.kill 0] x
  have hfits : x.fingerprint = c.fingerprint ∧ x.actors.length = c.actors.size := ⟨rfl, by decide +kernel⟩
  obtain ⟨u, hu⟩ := hs.mpr hfits
  obtain ⟨v, hv⟩ := ht.mpr hfits
  refine ⟨by decide +kernel, by decide +kernel, u, v, hu, hv, ?_⟩
  obtain ⟨-, -, hfuture⟩ := hboth u v hu hv
  intro time
  have quiet : Host.quiet.Alike .quiet Eq := by
    constructor <;> rintro call _ _ rfl <;> exact ⟨rfl, rfl⟩
  exact (hfuture rfl (.cons (.frame quiet time) .nil)).1

end Scene

end SceneScript
