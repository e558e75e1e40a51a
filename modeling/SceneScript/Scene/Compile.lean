import SceneScript.Diagnostic.Log
import SceneScript.Program.Compile
import SceneScript.Scene.Source
import SceneScript.Scene.State
import SceneScript.Script.Parse

/-! # Compiling scenes

Every script of the scene is parsed, then all are linked together, then all are bound.
Compiling never fails as a whole: a broken script is cut short or left with unresolved
operands, and the log says why. -/

namespace SceneScript

def SceneSource.layout (s : SceneSource) : Layout := ⟨s.actors.length, s.pointCount⟩

def parseActor (catalog : Catalog) (scene actor : Nat) (source : ActorSource) :
    ParsedActor × List Diagnostic :=
  let (life, found) := parseScript catalog scene (.life actor) source.life
  let (moves, later) := parseScript catalog scene (.move actor) source.moves
  (⟨life, moves⟩, found ++ later)

def parseActors (catalog : Catalog) (scene : Nat) (sources : List ActorSource) :
    Array ParsedActor × List Diagnostic :=
  let parsed := sources.zipIdx.map fun (source, actor) => parseActor catalog scene actor source
  ((parsed.map Prod.fst).toArray, parsed.flatMap Prod.snd)

/-- Programs of an actor, and the states its scripts start in. -/
structure CompiledActor where
  programs : ActorPrograms
  state : ActorState

/-- The state a program starts in; an empty one never runs. -/
def Program.initialState (p : Program) : ScriptState :=
  if p.instructions.isEmpty then .terminated else .fresh

def ActorPrograms.initialState (a : ActorPrograms) : ActorState :=
  ⟨a.life.initialState, a.moves.initialState⟩

structure CompiledScene where
  index : Nat
  layout : Layout
  actors : Array CompiledActor
  fingerprint : String
  diagnostics : DiagnosticLog

/-- Compile a scene. -/
def compileScene (catalog : Catalog) (source : SceneSource) : CompiledScene :=
  let (parsed, parseFindings) := parseActors catalog source.index source.actors
  let (linked, linkFindings) := linkScene source.index parsed
  let bound := linked.map (Compile.actor source.index source.layout)
  let bindFindings := bound.toList.flatMap Prod.snd
  { index := source.index
    layout := source.layout
    actors := bound.map fun (programs, _) => ⟨programs, programs.initialState⟩
    fingerprint := Fingerprint.ofActors source.actors
    diagnostics := DiagnosticLog.empty.pushAll (parseFindings ++ linkFindings ++ bindFindings) }

end SceneScript
