import SceneScript.Diagnostic.Basic
import SceneScript.Script.Parsed

/-! # Linking

Jumps are read as byte offsets; linking turns them into command indices. An offset
argument leads into its own script. Three operations also keep a raw offset into another
script: SET_TRACK into the actor's move script, SET_TRACK_OBJ and SET_BEHAVIOUR_OBJ into
the move or life script of the actor named by the first argument. An offset where no
command starts stays in place as an unresolved number and is reported; a reference into an
actor outside the scene is reported once, for the actor. -/

namespace SceneScript

/-! ### What linking reports -/

/-- A finding about one command; `name` is the command's name. -/
inductive LinkIssue where
  | unresolvedJump (name : String) (offset : Int)
  | unknownTargetActor (name : String) (actor : Int) (count : Nat)
  | missingTargetActor (name : String)
  | missingArgument (name : String) (slot : Nat)
  deriving DecidableEq, Repr

namespace LinkIssue

def code : LinkIssue → Nat
  | .unresolvedJump .. => 200
  | .unknownTargetActor .. => 201
  | .missingTargetActor _ | .missingArgument .. => 202

/-- References that lead nowhere are warnings, missing arguments are errors. -/
def severity : LinkIssue → Severity
  | .unresolvedJump .. | .unknownTargetActor .. => .warning
  | .missingTargetActor _ | .missingArgument .. => .error

def message : LinkIssue → String
  | .unresolvedJump name offset => name ++ ": no command at offset " ++ toString offset
  | .unknownTargetActor name actor count =>
    name ++ " targets actor " ++ toString actor ++ ", scene has " ++ toString count
  | .missingTargetActor name => name ++ " has no target actor"
  | .missingArgument name slot => name ++ " has no argument " ++ toString slot

def offset? : LinkIssue → Option Nat
  | .unresolvedJump _ offset =>
    if 0 ≤ offset ∧ offset < 0x100000000 then some offset.toNat else none
  | _ => none

def diagnostic (i : LinkIssue) (scene : Nat) (id : ScriptId) (index : Nat) : Diagnostic :=
  .make i.severity i.code i.message ⟨scene, id, some index, i.offset?⟩

end LinkIssue

/-! ### Linked scripts -/

/-- A script whose jumps are command indices. -/
structure LinkedScript where
  id : ScriptId
  commands : Array Command
  behaviors : IndexMap Int
  tracks : IndexMap Int

structure LinkedActor where
  life : LinkedScript
  moves : LinkedScript

namespace Link

/-! ### One reference -/

/-- The command a raw offset leads to in a destination script. -/
def lookup (destination : Option ParsedScript) (n : Int) : Option Nat :=
  if 0 ≤ n then destination.bind fun s => s.indexOf? n.toNat else none

/-- Resolve a raw offset argument; anything but a number is left alone. -/
def resolve (destination : Option ParsedScript) (name : String) (a : Argument) :
    Argument × List LinkIssue :=
  match a.value with
  | .number n =>
    match lookup destination n with
    | some index => ({ a with value := .target index }, [])
    | none => ({ a with value := .unresolved n }, [.unresolvedJump name n])
  | _ => (a, [])

/-- Give up a raw offset argument without a finding of its own. -/
def abandon (a : Argument) : Argument :=
  match a.value with
  | .number n => { a with value := .unresolved n }
  | _ => a

def resolveOffsets (own : Option ParsedScript) (name : String) :
    List Argument → List Argument × List LinkIssue
  | [] => ([], [])
  | a :: rest =>
    let (a, found) := if a.slot.role = .offset then resolve own name a else (a, [])
    let (rest, later) := resolveOffsets own name rest
    (a :: rest, found ++ later)

/-- The actor of the scene that a command's first argument names. -/
def targetActor (actors : Array ParsedActor) (c : Command) : Option Nat × List LinkIssue :=
  match c.firstNumber? with
  | none => (none, [.missingTargetActor c.name])
  | some n =>
    if 0 ≤ n ∧ n.toNat < actors.size then (some n.toNat, [])
    else (none, [.unknownTargetActor c.name n actors.size])

/-! ### References into other scripts -/

/-- Where a command keeps a raw offset into another script: in which argument, into which kind of
script, and whether the first argument names the actor; otherwise it is the command's own. -/
structure CrossReference where
  slot : Nat
  kind : ScriptKind
  named : Bool

/-- The reference into another script that an operation keeps. -/
def crossReference? : Operation → Option CrossReference
  | .setTrack => some ⟨0, .move, false⟩
  | .setTrackObj => some ⟨1, .move, true⟩
  | .setBehaviourObj => some ⟨1, .life, true⟩
  | _ => none

def resolveCross (actors : Array ParsedActor) (own : Nat) (r : CrossReference) (c : Command) :
    Command × List LinkIssue :=
  let (actor, found) := if r.named then targetActor actors c else (some own, [])
  match c.args[r.slot]?, actor with
  | none, _ => (c, found ++ [.missingArgument c.name r.slot])
  | some a, some actor =>
    let (a, later) := resolve (actors[actor]?.map fun p => p.script r.kind) c.name a
    ({ c with args := c.args.set r.slot a }, found ++ later)
  | some a, none => ({ c with args := c.args.set r.slot (abandon a) }, found)

/-! ### Commands, scripts, scenes -/

def command (actors : Array ParsedActor) (id : ScriptId) (c : Command) :
    Command × List LinkIssue :=
  let own := actors[id.actor]?.map fun p => p.script id.kind
  let (args, found) := resolveOffsets own c.name c.args
  let c := { c with args }
  match crossReference? c.opcode.operation with
  | none => (c, found)
  | some r =>
    let (c, later) := resolveCross actors id.actor r c
    (c, found ++ later)

def script (actors : Array ParsedActor) (scene : Nat) (s : ParsedScript) :
    LinkedScript × List Diagnostic :=
  let linked := s.commands.map (command actors s.id)
  (⟨s.id, linked.map Prod.fst, s.behaviors, s.tracks⟩,
    linked.toList.zipIdx.flatMap fun (r, index) => r.2.map fun i => i.diagnostic scene s.id index)

/-- Link both scripts of an actor, life before move. -/
def actor (actors : Array ParsedActor) (scene : Nat) (a : ParsedActor) :
    LinkedActor × List Diagnostic :=
  let (life, found) := script actors scene a.life
  let (moves, later) := script actors scene a.moves
  (⟨life, moves⟩, found ++ later)

end Link

def linkScene (scene : Nat) (actors : Array ParsedActor) :
    Array LinkedActor × List Diagnostic :=
  let linked := actors.map (Link.actor actors scene)
  (linked.map Prod.fst, linked.toList.flatMap Prod.snd)

end SceneScript
