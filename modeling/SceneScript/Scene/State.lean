import SceneScript.Json.Record
import SceneScript.Number.Shortest
import SceneScript.Script.Id

/-! # Execution state

Each script of an actor has a plain record of offsets and flags, so that a snapshot is a
copy of fields. Instructions that span frames keep a scratch record of their own beside
it. -/

namespace SceneScript

/-! ### Scripts and actors -/

/-- The execution state of one script. The next call starts at `reentry`; none is the end of the
script. The last track declared is noted with the instruction that declared it, the behavior that
runs with its entry and the one to switch to when it ends, and `savedOffset` is a position stored
for a later return. -/
structure ScriptState where
  offset : Nat := 0
  running : Bool := false
  reentry : Option Nat := some 0
  track : Option Int := none
  trackOffset : Option Nat := none
  behaviorOffset : Option Nat := none
  nextBehavior : Option Nat := none
  savedOffset : Option Nat := none
  switchValue : Option Int := none
  deriving DecidableEq, Repr, Inhabited

namespace ScriptState

def fresh : ScriptState := {}

/-- A script that never runs. -/
def terminated : ScriptState := { reentry := none }

def isTerminated (s : ScriptState) : Bool := s.reentry.isNone

def terminate (s : ScriptState) : ScriptState := { s with reentry := none, running := false }

def toJson (s : ScriptState) : Json :=
  .obj [
    ("offset", .nat s.offset), ("continue", .bool s.running), ("reentry", .opt .nat s.reentry),
    ("track", .opt .int s.track), ("track_offset", .opt .nat s.trackOffset),
    ("behavior_offset", .opt .nat s.behaviorOffset), ("next_behavior", .opt .nat s.nextBehavior),
    ("saved_offset", .opt .nat s.savedOffset), ("switch_value", .opt .int s.switchValue)]

def fieldNames : List String :=
  ["offset", "continue", "reentry", "track", "track_offset", "behavior_offset", "next_behavior",
    "saved_offset", "switch_value"]

def ofJson? (j : Json) : Option ScriptState := do
  let fields ← j.record? fieldNames
  let offset ← Json.required fields "offset" Json.size?
  let running ← Json.required fields "continue" Json.bool?
  let reentry ← Json.optional fields "reentry" Json.size?
  let track ← Json.optional fields "track" Json.int64?
  let trackOffset ← Json.optional fields "track_offset" Json.size?
  let behaviorOffset ← Json.optional fields "behavior_offset" Json.size?
  let nextBehavior ← Json.optional fields "next_behavior" Json.size?
  let savedOffset ← Json.optional fields "saved_offset" Json.size?
  let switchValue ← Json.optional fields "switch_value" Json.int64?
  return { offset, running, reentry, track, trackOffset, behaviorOffset, nextBehavior,
           savedOffset, switchValue }

end ScriptState

/-- The states of an actor's two scripts. -/
structure ActorState where
  life : ScriptState := {}
  moves : ScriptState := {}
  deriving DecidableEq, Repr, Inhabited

namespace ActorState

def get (a : ActorState) : ScriptKind → ScriptState
  | .life => a.life
  | .move => a.moves

def modify (a : ActorState) (kind : ScriptKind) (f : ScriptState → ScriptState) : ActorState :=
  match kind with
  | .life => { a with life := f a.life }
  | .move => { a with moves := f a.moves }

def toJson (a : ActorState) : Json :=
  .obj [("life", a.life.toJson), ("moves", a.moves.toJson)]

def ofJson? (j : Json) : Option ActorState := do
  let fields ← j.record? ["life", "moves"]
  let life ← Json.required fields "life" ScriptState.ofJson?
  let moves ← Json.required fields "moves" ScriptState.ofJson?
  return ⟨life, moves⟩

@[simp] theorem get_modify_self (a : ActorState) (kind : ScriptKind)
    (f : ScriptState → ScriptState) :
    (a.modify kind f).get kind = f (a.get kind) := by
  cases kind <;> rfl

@[simp] theorem get_modify_sibling (a : ActorState) (kind : ScriptKind)
    (f : ScriptState → ScriptState) :
    (a.modify kind f).get kind.sibling = a.get kind.sibling := by
  cases kind <;> rfl

end ActorState

/-! ### Scratch records -/

/-- What a game keeps in a scratch record. -/
inductive Scratch where
  | integer (n : Int)
  | text (s : String)
  deriving DecidableEq, Repr

/-- The scratch record of one instruction, kept across frames: the outcome of the previous
rising-edge test, whether a one-time test has passed, when a wait ends, and room for the game. -/
structure CallState where
  latch : Bool := false
  used : Bool := false
  deadline : Option Binary64 := none
  scratch : Option Scratch := none
  deriving DecidableEq, Repr, Inhabited

namespace CallState

def integer (s : CallState) : Int :=
  match s.scratch with
  | some (.integer n) => n
  | _ => 0

def text (s : CallState) : String :=
  match s.scratch with
  | some (.text t) => t
  | _ => ""

def setInteger (s : CallState) (n : Int) : CallState := { s with scratch := some (.integer n) }

def setText (s : CallState) (t : String) : CallState := { s with scratch := some (.text t) }

/-- Add to the integer kept, in 64-bit two's complement. -/
def addInteger (s : CallState) (n : Int) : CallState :=
  s.setInteger ((s.integer + n).bmod 0x10000000000000000)

/-- Whether the engine's part of the record has been touched. -/
def isActive (s : CallState) : Bool := s.latch || s.used || s.deadline.isSome

def display (s : CallState) : String :=
  let flag (b : Bool) : String := if b then "true" else "false"
  let deadline :=
    match s.deadline with
    | none => "None"
    | some t => "Some(" ++ t.text ++ ")"
  "CallState \x7b latch: " ++ flag s.latch ++ ", used: " ++ flag s.used ++ ", deadline: " ++
    deadline ++ ", ext: " ++ flag s.scratch.isSome ++ " \x7d"

end CallState

end SceneScript
