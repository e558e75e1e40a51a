import SceneScript.Proofs.Exchanges

/-! # Budgets

A budget cuts a run short and does nothing else. With `gas` instructions to spend, a run either stops
for a reason of its own, and then stops there with any larger budget, or it has taken `gas` steps and
is at another instruction (`Run.drive_settled_or_exhausted`, by induction on the budget). Steps are
the same under every budget, so the shorter run is the beginning of the longer one.

`Scene.runScript_withGas` says so of running a script: what it returns, what it leaves, where it has
been, and what has passed between it and the game. -/

namespace SceneScript

/-- A run under another budget. -/
def RunContext.withLimit {σ : Type} (cx : RunContext σ) (limit : Nat) : RunContext σ :=
  { cx with gasLimit := limit }

namespace Run

variable {σ : Type} {cx : RunContext σ}

theorem Steps.withLimit {n : Nat} {r s : Run σ} (h : Steps cx n r s) (limit : Nat) :
    Steps (cx.withLimit limit) n r s := by
  induction h with
  | refl r => exact .refl r
  | more hat hstep _ ih => exact .more hat hstep ih

/-- A run stops with an outcome for a reason that is not its budget, so with any larger one too. -/
structure Settles (cx : RunContext σ) (gas : Nat) (r : Run σ) : Prop where
  larger : ∀ limit more, drive (cx.withLimit limit) (gas + more) r = drive cx gas r
  reason : ∀ limit, (drive cx gas r).1 ≠ .error (.gasExhausted limit)

theorem not_fails_gasExhausted {site : Site} {i : Instruction} {states : Array ActorState}
    {limit : Nat} : ¬ Fails site i states (.gasExhausted limit) := by
  intro h
  cases h

theorem settles_or_at (cx : RunContext σ) (r : Run σ) :
    (∀ gas, Settles cx gas r ∧ (drive cx gas r).2 = r) ∨ ∃ offset i, At cx r offset i := by
  rcases halts_or_at cx r with ⟨result, hhalt⟩ | hat
  · refine .inl fun gas => ⟨⟨fun limit more => ?_, fun limit => ?_⟩, by rw [drive_of_halt? hhalt]⟩
    · have hhalt' : halt? (cx.withLimit limit) r = some result := hhalt
      rw [drive_of_halt? hhalt, drive_of_halt? hhalt']
    · rw [drive_of_halt? hhalt]
      rcases halt?_eq_some hhalt with ⟨-, rfl⟩ | ⟨-, -, rfl⟩ <;> simp
  · exact .inr hat

/-- **A budget is enough or is used up.** -/
theorem drive_settled_or_exhausted (cx : RunContext σ) (gas : Nat) (r : Run σ) :
    Settles cx gas r ∨
      ∃ s, Steps cx gas r s ∧ drive cx gas r = (.error (.gasExhausted cx.gasLimit), s) := by
  induction gas generalizing r with
  | zero =>
      rcases settles_or_at cx r with hsettles | ⟨offset, i, hat⟩
      · exact .inl (hsettles 0).1
      · exact .inr ⟨r, .refl r, drive_zero_of_at hat⟩
  | succ gas ih =>
      rcases settles_or_at cx r with hsettles | ⟨offset, i, hat⟩
      · exact .inl (hsettles (gas + 1)).1
      have hat' : ∀ limit, At (cx.withLimit limit) r offset i := fun _ => hat
      rcases hs : step cx offset i r with ⟨fault | u, s⟩
      · left
        have hs' : ∀ limit, step (cx.withLimit limit) offset i r = (.error fault, s) := fun _ => hs
        refine ⟨fun limit more => ?_, fun limit => ?_⟩
        · rw [Nat.add_right_comm, drive_succ_of_at (hat' limit), hs', drive_succ_of_at hat, hs]
        · rw [drive_succ_of_at hat, hs]
          rintro ⟨⟩
          exact not_fails_gasExhausted (fails_of_step hs)
      · have hs' : ∀ limit, step (cx.withLimit limit) offset i r = (.ok (), s) := fun _ => hs
        have hdrive : drive cx (gas + 1) r = drive cx gas s := by rw [drive_succ_of_at hat, hs]
        rcases ih s with hsettles | ⟨t, hsteps, hexhausted⟩
        · left
          refine ⟨fun limit more => ?_, fun limit => ?_⟩
          · rw [Nat.add_right_comm, drive_succ_of_at (hat' limit), hs', hdrive]
            exact hsettles.larger limit more
          · rw [hdrive]
            exact hsettles.reason limit
        · right
          exact ⟨t, .more hat hs hsteps, hdrive.trans hexhausted⟩

theorem visited_drive_le (cx : RunContext σ) (gas : Nat) (r : Run σ) :
    (drive cx gas r).2.visited.size ≤ r.visited.size + gas := by
  induction gas generalizing r with
  | zero =>
      rcases settles_or_at cx r with hsettles | ⟨offset, i, hat⟩
      · rw [(hsettles 0).2]
        omega
      · rw [drive_zero_of_at hat]
        simp
  | succ gas ih =>
      rcases settles_or_at cx r with hsettles | ⟨offset, i, hat⟩
      · rw [(hsettles (gas + 1)).2]
        omega
      · have hvisited := visited_step cx offset i r
        rw [drive_succ_of_at hat]
        rcases hs : step cx offset i r with ⟨fault | u, s⟩
        · rw [hs] at hvisited
          change s.visited.size ≤ _
          rw [show s.visited = _ from hvisited, Array.size_push]
          omega
        · rw [hs] at hvisited
          have hrest := ih s
          rw [show s.visited = _ from hvisited, Array.size_push] at hrest
          change (drive cx gas s).2.visited.size ≤ _
          omega

end Run

namespace Scene

variable {σ : Type}

def withGas (s : Scene) (limit : Nat) : Scene :=
  { s with config := { s.config with gasLimit := limit } }

/-- After `n` instructions the run of a script has come to `r`. -/
def Passes (s : Scene) (host : Host σ) (h : σ) (id : ScriptId) (time : FrameTime) (n : Nat)
    (r : Run σ) : Prop :=
  ∃ program start, s.program? id = some program ∧ (scriptAt s.states id).reentry = some start ∧
    Run.Steps (s.context host id program time) n (s.started h id start) r

/-- What a run comes to does not depend on the budget of the scene. -/
theorem outcome_withGas (s : Scene) (limit : Nat) (id : ScriptId) (o : Except Fault Unit × Run σ) :
    (s.withGas limit).outcome id o =
      ⟨(s.outcome id o).result, (s.outcome id o).visited, (s.outcome id o).scene.withGas limit,
        (s.outcome id o).host⟩ := by
  rcases o with ⟨fault | u, r⟩ <;> rfl

/-- A run that does not use up its budget is the same with a larger one; one that does stops where
the run with the larger budget passes. -/
theorem runScript_settled_or_exhausted (s : Scene) (host : Host σ) (h : σ) (id : ScriptId)
    (time : FrameTime) (gas more : Nat) :
    let short := (s.withGas gas).runScript host h id time
    let long := (s.withGas (gas + more)).runScript host h id time
    (∀ limit, short.result ≠ .error (.gasExhausted limit)) ∧
      long = ⟨short.result, short.visited, short.scene.withGas (gas + more), short.host⟩ ∨
    short.result = .error (.gasExhausted gas) ∧
      ∃ r, (s.withGas (gas + more)).Passes host h id time gas r ∧
        short.visited = r.visited.toList ∧ short.host = r.host := by
  intro short long
  cases hp : s.program? id with
  | none =>
      have hnone : ∀ limit, (s.withGas limit).program? id = none := fun _ => hp
      left
      simp only [short, long, runScript, hnone]
      exact ⟨by simp, rfl⟩
  | some program =>
      have hprogram : ∀ limit, (s.withGas limit).program? id = some program := fun _ => hp
      cases hr : (scriptAt s.states id).reentry with
      | none =>
          left
          have hrest : ∀ limit, (s.withGas limit).runScript host h id time =
              (s.withGas limit).outcome id (.ok (), s.ready h id) :=
            fun limit => runScript_of_ended (hprogram limit) hr host h time
          simp only [short, long, hrest]
          exact ⟨by simp [outcome], rfl⟩
      | some start =>
          have hshort : short = (s.withGas gas).outcome id _ :=
            runScript_of_reentry (hprogram gas) hr host h time
          rcases Run.drive_settled_or_exhausted ((s.withGas gas).context host id program time) gas
            (s.started h id start) with hsettles | ⟨r, hsteps, hexhausted⟩
          · left
            obtain ⟨hlarger, hreason⟩ := hsettles
            have hlong : long = (s.withGas (gas + more)).outcome id _ :=
              (runScript_of_reentry (hprogram (gas + more)) hr host h time).trans
                (congrArg ((s.withGas (gas + more)).outcome id) (hlarger (gas + more) more))
            rw [hlong, hshort, outcome_withGas, outcome_withGas]
            refine ⟨fun limit hresult => ?_, rfl⟩
            exact hreason limit (outcome_result_eq_error_iff.mp hresult)
          · right
            have hsteps' : Run.Steps ((s.withGas (gas + more)).context host id program time) gas
              (s.started h id start) r := hsteps.withLimit (gas + more)
            have hshort : short = (s.withGas gas).outcome id _ :=
              hshort.trans (congrArg ((s.withGas gas).outcome id) hexhausted)
            rw [hshort]
            exact ⟨rfl, r, ⟨program, start, hp, hr, hsteps'⟩, rfl, rfl⟩

theorem Passes.visited_size {s : Scene} {host : Host σ} {h : σ} {id : ScriptId} {time : FrameTime}
    {n : Nat} {r : Run σ} (hr : s.Passes host h id time n r) : r.visited.size = n := by
  obtain ⟨program, start, -, -, hsteps⟩ := hr
  rw [hsteps.visited_size]
  exact Nat.zero_add n

theorem length_visited_le (s : Scene) (host : Host σ) (h : σ) (id : ScriptId) (time : FrameTime) :
    (s.runScript host h id time).visited.length ≤ s.config.gasLimit := by
  cases hp : s.program? id with
  | none => simp [runScript, hp]
  | some program =>
      cases hr : (scriptAt s.states id).reentry with
      | none =>
          have hok := (runScript_of_terminated hp hr host h time).1
          rw [length_visited hok]
          omega
      | some start =>
          rw [runScript_of_reentry hp hr, outcome_visited, Array.length_toList]
          have hle := Run.visited_drive_le (s.context host id program time) s.config.gasLimit
            (s.started h id start)
          rwa [show (s.started h id start).visited.size = 0 from rfl, Nat.zero_add] at hle

theorem Passes.visited_prefix {s : Scene} {host : Host σ} {h : σ} {id : ScriptId} {time : FrameTime}
    {n : Nat} {r : Run σ} (hr : s.Passes host h id time n r) (hn : n ≤ s.config.gasLimit) :
    r.visited.toList <+: (s.runScript host h id time).visited := by
  obtain ⟨program, start, hp, hstart, hsteps⟩ := hr
  have hdrive := hsteps.drive (s.config.gasLimit - n)
  rw [Nat.sub_add_cancel hn] at hdrive
  rw [runScript_of_reentry hp hstart, hdrive, outcome_visited]
  exact Run.visited_prefix_drive _ _ _

/-- What a run has exchanged with the game when it has passed some instructions comes first in what
it exchanges. -/
theorem Passes.told_prefix {s : Scene} {host : Host σ} {h : σ} {id : ScriptId} {time : FrameTime}
    {n : Nat} {r : Run (σ × List Exchange)} (hr : s.Passes host.recorded (h, []) id time n r)
    (hn : n ≤ s.config.gasLimit) : r.host.2 <+: s.exchanges host h id time := by
  obtain ⟨program, start, hp, hstart, hsteps⟩ := hr
  have hdrive := hsteps.drive (s.config.gasLimit - n)
  rw [Nat.sub_add_cancel hn] at hdrive
  rw [exchanges, runScript_of_reentry hp hstart, hdrive, outcome_host]
  exact Run.drive_told rfl _ _

/-- A run that does not use up its budget is the same with a larger one, to the game as well. -/
theorem runScript_of_settled (s : Scene) (host : Host σ) (h : σ) (id : ScriptId) (time : FrameTime)
    (gas more : Nat)
    (hreason : ∀ limit, ((s.withGas gas).runScript host h id time).result ≠
      .error (.gasExhausted limit)) :
    let short := (s.withGas gas).runScript host h id time
    let long := (s.withGas (gas + more)).runScript host h id time
    long.result = short.result ∧ long.visited = short.visited ∧ long.host = short.host ∧
      long.scene = short.scene.withGas (gas + more) ∧
      (s.withGas (gas + more)).exchanges host h id time =
        (s.withGas gas).exchanges host h id time := by
  intro short long
  -- The runs are compared with the exchange noted, which is then part of what is the same.
  obtain ⟨hresult, hvisited, hscene, hhost⟩ := (s.withGas gas).runScript_recorded host h id time
  have hlong := (s.withGas (gas + more)).runScript_recorded host h id time
  rcases s.runScript_settled_or_exhausted host.recorded (h, []) id time gas more with
    ⟨-, hsame⟩ | ⟨hexhausted, -⟩
  · rw [hsame] at hlong
    dsimp only at hlong
    rw [hresult, hvisited, hscene, hhost] at hlong
    obtain ⟨hresult', hvisited', hscene', hhost'⟩ := hlong
    obtain ⟨hgame, htold⟩ := Prod.mk.inj hhost'
    exact ⟨hresult'.symm, hvisited'.symm, hgame.symm, hscene'.symm, htold.symm⟩
  · rw [hresult] at hexhausted
    exact absurd hexhausted (hreason gas)

/-- A run that uses up its budget has executed as many instructions as it may, the first ones of the
run with a larger budget. -/
theorem runScript_of_exhausted (s : Scene) (host : Host σ) (h : σ) (id : ScriptId)
    (time : FrameTime) (gas more : Nat) {limit : Nat}
    (hlimit : ((s.withGas gas).runScript host h id time).result = .error (.gasExhausted limit)) :
    let short := (s.withGas gas).runScript host h id time
    let told := (s.withGas gas).exchanges host h id time
    limit = gas ∧ ∃ r, (s.withGas (gas + more)).Passes host.recorded (h, []) id time gas r ∧
      r.visited.toList = short.visited ∧ r.host = (short.host, told) := by
  intro short told
  obtain ⟨hresult, hvisited, -, hhost⟩ := (s.withGas gas).runScript_recorded host h id time
  rcases s.runScript_settled_or_exhausted host.recorded (h, []) id time gas more with
    ⟨hreason, -⟩ | ⟨hexhausted, r, hpasses, hr, hgame⟩
  · rw [hresult] at hreason
    exact absurd hlimit (hreason limit)
  · rw [hresult, hlimit] at hexhausted
    rw [hvisited] at hr
    rw [hhost] at hgame
    cases hexhausted
    exact ⟨rfl, r, hpasses, hr.symm, hgame.symm⟩

/-- **A budget only cuts runs short.** A run executes at most as many instructions as its budget
allows, and if it succeeds it returns their number. If it does not use up its budget, it is the same
with any larger one: in what it returns and leaves, where it has been and what has passed between it
and the game. If it does, it has executed as many instructions as it may, and they are the first ones
of the run with the larger budget, to the game as well. -/
theorem runScript_withGas (s : Scene) (host : Host σ) (h : σ) (id : ScriptId) (time : FrameTime)
    {gas larger : Nat} (hle : gas ≤ larger) :
    let short := (s.withGas gas).runScript host h id time
    let long := (s.withGas larger).runScript host h id time
    let told (limit : Nat) := (s.withGas limit).exchanges host h id time
    short.visited.length ≤ gas ∧
    (∀ n, short.result = .ok n → short.visited.length = n ∧
      (0 < n → ∃ r, (s.withGas gas).Passes host h id time n r ∧ r.visited.toList = short.visited)) ∧
    ((∀ limit, short.result ≠ .error (.gasExhausted limit)) →
      long.result = short.result ∧ long.visited = short.visited ∧ long.host = short.host ∧
        long.scene = short.scene.withGas larger ∧ told larger = told gas) ∧
    ∀ limit, short.result = .error (.gasExhausted limit) →
      limit = gas ∧ short.visited.length = gas ∧ short.visited = long.visited.take gas ∧
        told gas <+: told larger ∧
        ∃ r, (s.withGas larger).Passes host.recorded (h, []) id time gas r ∧
          r.visited.toList = short.visited ∧ r.host = (short.host, told gas) := by
  intro short long told
  obtain ⟨more, rfl⟩ := Nat.exists_eq_add_of_le hle
  refine ⟨(s.withGas gas).length_visited_le host h id time, ?_, ?_, ?_⟩
  · intro n hok
    refine ⟨length_visited hok, fun hpos => ?_⟩
    obtain ⟨program, start, r, hp, hstart, hsteps, -, hvisited, -⟩ := steps_of_ok hok hpos
    exact ⟨r, ⟨program, start, hp, hstart, hsteps⟩, hvisited.symm⟩
  · intro hreason
    exact s.runScript_of_settled host h id time gas more hreason
  · intro limit hlimit
    obtain ⟨hsame, r, hpasses, hvisited, hhost⟩ :=
      s.runScript_of_exhausted host h id time gas more hlimit
    have hlength : short.visited.length = gas := by
      rw [← hvisited, Array.length_toList, hpasses.visited_size]
    have hfirst : short.visited <+: long.visited := by
      have hprefix := hpasses.visited_prefix (Nat.le_add_right gas more)
      have hlong := ((s.withGas (gas + more)).runScript_recorded host h id time).2.1
      rwa [hlong, hvisited] at hprefix
    have htold : told gas <+: told (gas + more) := by
      have hprefix := hpasses.told_prefix (Nat.le_add_right gas more)
      rwa [hhost] at hprefix
    refine ⟨hsame, hlength, ?_, htold, r, hpasses, hvisited, hhost⟩
    rw [← hlength]
    exact List.prefix_iff_eq_take.mp hfirst

/-- Two commands to a game that counts them: with a budget of two the second one is not given, and
what the game has heard is the beginning of what it hears with a budget of ten. -/
theorem runScript_withGas_two :
    let source : SceneSource := { actors := [{ life := [0x0A, 3, 0x0A, 4, 0x00] }] }
    let s := ofCompiled (compileScene .standard source) {}
    let game : Host Nat :=
      ⟨fun call n => (⟨.ok .advance, call.actor, call.callState⟩, n + 1), fun _ n => (.ok 0, n)⟩
    let short := (s.withGas 2).runScript game 0 (.life 0) {}
    let long := (s.withGas 10).runScript game 0 (.life 0) {}
    short.result = .error (.gasExhausted 2) ∧ short.host = 1 ∧ long.result = .ok 4 ∧ long.host = 2 ∧
      short.visited = long.visited.take 2 ∧
      (s.withGas 2).exchanges game 0 (.life 0) {} <+:
        (s.withGas 10).exchanges game 0 (.life 0) {} := by
  intro source s game short long
  have hresult : short.result = .error (.gasExhausted 2) := by decide +kernel
  obtain ⟨-, -, -, hshort⟩ := runScript_withGas s game 0 (.life 0) {} (show 2 ≤ 10 by omega)
  obtain ⟨-, -, hvisited, htold, -⟩ := hshort 2 hresult
  exact ⟨hresult, by decide +kernel, by decide +kernel, by decide +kernel, hvisited, htold⟩

end Scene

end SceneScript
