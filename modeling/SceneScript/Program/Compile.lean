import SceneScript.Program.Basic
import SceneScript.Script.Link

/-! # Compiling

Linked commands become instructions, bound against the size of the scene. An actor or
point argument outside the scene is an error and stays unresolved. Every instruction
belongs to the part that the last behavior entry (life) or track (move) at or before it
starts. -/

namespace SceneScript

/-- How many actors and points a scene has. -/
structure Layout where
  actorCount : Nat
  pointCount : Nat
  deriving DecidableEq, Repr, Inhabited

/-- An argument that names something outside the scene. -/
inductive BindIssue where
  | unknownActor (n : Int)
  | unknownPoint (n : Int)
  deriving DecidableEq, Repr

namespace BindIssue

def code : BindIssue → Nat
  | .unknownActor _ => 300
  | .unknownPoint _ => 301

def message : BindIssue → String
  | .unknownActor n => "unknown actor " ++ toString n
  | .unknownPoint n => "unknown point " ++ toString n

def diagnostic (i : BindIssue) (scene : Nat) (id : ScriptId) (index : Nat) : Diagnostic :=
  .make .error i.code i.message { scene, script := id, command := some index }

end BindIssue

namespace Compile

def indexBelow? (count : Nat) (n : Int) : Option Nat :=
  if 0 ≤ n ∧ n.toNat < count then some n.toNat else none

def operand (layout : Layout) (a : Argument) : Operand × List BindIssue :=
  match a.value with
  | .text s => (.text s, [])
  | .target t => (.target t, [])
  | .unresolved n => (.unresolved n, [])
  | .number n =>
    match a.slot.role with
    | .actor =>
      match indexBelow? layout.actorCount n with
      | some i => (.actor i, [])
      | none => (.unresolved n, [.unknownActor n])
    | .point =>
      match indexBelow? layout.pointCount n with
      | some i => (.point i, [])
      | none => (.unresolved n, [.unknownPoint n])
    | .offset => (.unresolved n, [])
    | .value | .label => (.number n, [])

def condition (layout : Layout) (k : Condition) : BoundCondition × List BindIssue :=
  match k.param with
  | none => (⟨k.predicate, none⟩, [])
  | some a =>
    let (o, found) := operand layout a
    (⟨k.predicate, some o⟩, found)

/-- Bind a comparison; a literal that is no number counts as zero. -/
def test (t : Test) : BoundTest := ⟨t.operator, t.operand.value.number?.getD 0⟩

def command (layout : Layout) (index : Nat) (part : Option Int) (c : Command) :
    Instruction × List BindIssue :=
  let bound := c.condition.map (condition layout)
  let operands := c.args.map (operand layout)
  ({ opcode := c.opcode
     index := index
     part := part
     condition := bound.map Prod.fst
     test := c.test.map test
     operands := operands.map Prod.fst
     offset := c.offset },
    bound.toList.flatMap Prod.snd ++ operands.flatMap Prod.snd)

/-- The map whose entries start the parts of a script. -/
def parts (s : LinkedScript) : IndexMap Int :=
  match s.id.kind with
  | .life => s.behaviors
  | .move => s.tracks

/-- Bind commands from an index on, inside the part in force before it, behind those bound
so far. -/
def commands (layout : Layout) (starts : IndexMap Int) :
    Nat → Option Int → List Command → Array (Instruction × List BindIssue) →
      Array (Instruction × List BindIssue)
  | _, _, [], bound => bound
  | index, part, c :: rest, bound =>
    let part := starts[index]?.or part
    commands layout starts (index + 1) part rest (bound.push (command layout index part c))

def script (scene : Nat) (layout : Layout) (s : LinkedScript) : Program × List Diagnostic :=
  let bound := commands layout (parts s) 0 none s.commands.toList #[]
  (⟨s.id, bound.map Prod.fst, s.behaviors, s.tracks⟩,
    bound.toList.flatMap fun (i, found) => found.map fun f => f.diagnostic scene s.id i.index)

def actor (scene : Nat) (layout : Layout) (a : LinkedActor) : ActorPrograms × List Diagnostic :=
  let (life, found) := script scene layout a.life
  let (moves, later) := script scene layout a.moves
  (⟨life, moves⟩, found ++ later)

end Compile

end SceneScript
