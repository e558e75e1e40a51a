import SceneScript.Scene.Compile
import SceneScript.Scene.Config
import SceneScript.Scene.Run
import SceneScript.Scene.Snapshot

/-! # Scenes

A scene owns the programs, states and scratch records of its actors. A frame runs every
actor once, its life script before its move script, in scene order. A fault ends the script
that raised it, is logged, and leaves all other scripts alone. Snapshots copy the states
out and in; scratch records start anew after a snapshot is restored. -/

namespace SceneScript

/-! ### Reports and traces -/

/-- The instructions that one script visited in a frame, and the behavior or track that the first of
them belongs to. -/
structure Visit where
  script : ScriptId
  part : Option Int
  offsets : List Nat
  deriving DecidableEq, Repr

/-- The visits of one frame; only scripts that executed something have one. -/
structure Trace where
  frame : UInt64
  visits : List Visit
  deriving DecidableEq, Repr

namespace Trace

def visited? (t : Trace) (id : ScriptId) : Option (List Nat) :=
  (t.visits.find? fun v => v.script == id).map Visit.offsets

def toJson (t : Trace) : Json :=
  .obj [
    ("frame", .nat t.frame.toNat),
    ("scripts", .list (fun v : Visit => .obj [
      ("script", v.script.toJson), ("section", .opt .int v.part),
      ("offsets", .list .nat v.offsets)]) t.visits)]

end Trace

/-- What a frame did. Steps are the instructions executed by the scripts that did not fault. -/
structure FrameReport where
  frame : UInt64
  steps : Nat := 0
  faults : List (ScriptId × Fault) := []
  deriving DecidableEq, Repr

/-! ### Scenes -/

structure ActorMemory where
  life : Memory := {}
  moves : Memory := {}

namespace ActorMemory

def get (m : ActorMemory) : ScriptKind → Memory
  | .life => m.life
  | .move => m.moves

def set (m : ActorMemory) (kind : ScriptKind) (memory : Memory) : ActorMemory :=
  match kind with
  | .life => { m with life := memory }
  | .move => { m with moves := memory }

end ActorMemory

/-- A scene in play. Its log holds what compiling reported, followed by the faults of runs. -/
structure Scene where
  index : Nat
  fingerprint : String
  programs : Array ActorPrograms
  states : Array ActorState
  memory : Array ActorMemory
  config : Config
  diagnostics : DiagnosticLog
  frame : UInt64 := 0
  trace : Option Trace := none

namespace Scene

variable {σ : Type}

def ofCompiled (c : CompiledScene) (config : Config) : Scene where
  index := c.index
  fingerprint := c.fingerprint
  programs := c.actors.map CompiledActor.programs
  states := c.actors.map CompiledActor.state
  memory := c.actors.map fun _ => {}
  config := config
  diagnostics := c.diagnostics

def actorCount (s : Scene) : Nat := s.states.size

def program? (s : Scene) (id : ScriptId) : Option Program :=
  s.programs[id.actor]?.map fun a => a.program id.kind

/-- The scripts of the scene, in the order a frame runs them. -/
def scripts (s : Scene) : List ScriptId :=
  (List.range s.actorCount).flatMap fun actor => ScriptKind.all.map fun kind => ⟨actor, kind⟩

/-! ### Running -/

/-- What came of running one script: the number of instructions executed, or the fault that stopped
it. -/
structure Outcome (σ : Type) where
  result : Except Fault Nat
  visited : List Nat := []
  scene : Scene
  host : σ

/-- End a script that faulted and log the fault at the instruction it was at. -/
def fail (s : Scene) (id : ScriptId) (fault : Fault) : Scene :=
  let offset := ((s.states.getD id.actor {}).get id.kind).offset
  { s with
    states := s.states.modify id.actor fun a => a.modify id.kind ScriptState.terminate
    diagnostics := s.diagnostics.push (fault.diagnostic s.index id offset) }

/-- Run one script until it suspends, yields or ends. -/
def runScript (s : Scene) (host : Host σ) (h : σ) (id : ScriptId) (time : FrameTime) : Outcome σ :=
  match s.program? id with
  | none => { result := .error (.unknownActor id.actor), scene := s, host := h }
  | some program =>
    let cx : RunContext σ :=
      ⟨host, id, program, time, s.config.headless, s.config.gasLimit⟩
    let memory := (s.memory.getD id.actor {}).get id.kind
    let (result, run) := Run.start cx { states := s.states, memory, host := h }
    let s :=
      { s with
        states := run.states
        memory := s.memory.modify id.actor fun m => m.set id.kind run.memory }
    let visited := run.visited.toList
    match result with
    | .ok () => { result := .ok visited.length, visited, scene := s, host := run.host }
    | .error fault =>
      { result := .error fault, visited, scene := s.fail id fault, host := run.host }

/-- The visit of a script, if it executed anything. -/
def visit? (s : Scene) (id : ScriptId) (visited : List Nat) : Option Visit :=
  visited.head?.map fun first =>
    ⟨id, ((s.program? id).bind fun p => p.instructions[first]?).bind Instruction.part, visited⟩

structure FrameProgress (σ : Type) where
  scene : Scene
  host : σ
  report : FrameReport
  visits : List Visit := []

def FrameProgress.run (p : FrameProgress σ) (host : Host σ) (time : FrameTime) (id : ScriptId) :
    FrameProgress σ :=
  let o := p.scene.runScript host p.host id time
  let report :=
    match o.result with
    | .ok steps => { p.report with steps := p.report.steps + steps }
    | .error fault => { p.report with faults := p.report.faults ++ [(id, fault)] }
  ⟨o.scene, o.host, report, p.visits ++ (o.scene.visit? id o.visited).toList⟩

/-- Run every script once. -/
def runFrame (s : Scene) (host : Host σ) (h : σ) (time : FrameTime) : FrameReport × Scene × σ :=
  let frame := s.frame + 1
  let start : FrameProgress σ := { scene := { s with frame }, host := h, report := { frame } }
  let done := s.scripts.foldl (fun p id => p.run host time id) start
  let trace := if s.config.trace then some ⟨frame, done.visits⟩ else none
  (done.report, { done.scene with trace }, done.host)

/-! ### Actors -/

def killActor (s : Scene) (actor : Nat) : Except Fault Scene :=
  if actor < s.actorCount then
    .ok { s with states := s.states.modify actor fun a => ⟨a.life.terminate, a.moves.terminate⟩ }
  else .error (.unknownActor actor)

/-- A script restarted at its first instruction; an empty one stays ended. -/
def restart (p : Program) (s : ScriptState) : ScriptState :=
  { s with
    running := false
    offset := 0
    reentry := if p.instructions.isEmpty then none else some 0 }

/-- Restart both scripts of an actor and clear its active track. -/
def reviveActor (s : Scene) (actor : Nat) : Except Fault Scene :=
  match s.programs[actor]? with
  | none => .error (.unknownActor actor)
  | some programs =>
    .ok { s with states := s.states.modify actor fun a =>
            ⟨restart programs.life a.life, { restart programs.moves a.moves with track := none }⟩ }

/-! ### Snapshots -/

def snapshot (s : Scene) : Snapshot := ⟨s.index, s.frame, s.fingerprint, s.states.toList⟩

/-- Replace all states by those of a snapshot of the same scripts. -/
def restore (s : Scene) (snapshot : Snapshot) : Except Fault Scene :=
  if snapshot.fingerprint = s.fingerprint ∧ snapshot.actors.length = s.actorCount then
    .ok { s with
      states := snapshot.actors.toArray
      memory := s.memory.map fun _ => {}
      frame := snapshot.frame }
  else .error .snapshotMismatch

end Scene

end SceneScript
