import SceneScript.Script.Parsed

/-! # Programs

The executable form of a script. An instruction is a command whose arguments are bound to
the scene: actors and points that exist, jump targets, plain numbers and texts; a reference
that could not be bound stays as an unresolved number and is a fault when executed. -/

namespace SceneScript

/-- A bound argument. -/
inductive Operand where
  | number (n : Int)
  | text (s : String)
  | actor (index : Nat)
  | point (index : Nat)
  | target (index : Nat)
  | unresolved (n : Int)
  deriving DecidableEq, Repr, Inhabited

namespace Operand

def number? : Operand → Option Int
  | .number n => some n
  | _ => none

def actor? : Operand → Option Nat
  | .actor a => some a
  | _ => none

def target? : Operand → Option Nat
  | .target t => some t
  | _ => none

def isUnresolved : Operand → Bool
  | .unresolved _ => true
  | _ => false

def display : Operand → String
  | .number n => toString n
  | .text s => Text.quote s
  | .actor a => displayActor a
  | .point p => displayPoint p
  | .target t => "@" ++ toString t
  | .unresolved n => "@?" ++ toString n

end Operand

structure BoundCondition where
  predicate : Predicate
  param : Option Operand
  deriving DecidableEq, Repr

structure BoundTest where
  operator : Operator
  literal : Int
  deriving DecidableEq, Repr

def BoundTest.passes (t : BoundTest) (value : Int) : Bool :=
  t.operator.comparison.test value t.literal

/-- One executable unit, with its place in the program, the behavior (life) or track (move) it
belongs to and the byte offset of the command. -/
structure Instruction where
  opcode : Opcode
  index : Nat
  part : Option Int
  condition : Option BoundCondition
  test : Option BoundTest
  operands : List Operand
  offset : Option Nat
  deriving DecidableEq, Repr, Inhabited

namespace Instruction

/-- Place and name, as faults quote them. -/
def label (i : Instruction) : String := toString i.index ++ " " ++ i.opcode.name

def operation (i : Instruction) : Operation := i.opcode.operation

def target? (i : Instruction) : Option Nat := i.operands.head?.bind Operand.target?

def display (i : Instruction) : String :=
  let condition :=
    match i.condition with
    | none => ""
    | some k => " " ++ k.predicate.name ++
      (match k.param with
      | none => ""
      | some p => "(" ++ p.display ++ ")")
  let test :=
    match i.test with
    | none => ""
    | some t => " " ++ t.operator.comparison.symbol ++ " " ++ toString t.literal
  i.label ++ condition ++ test ++ String.join (i.operands.map fun o => " " ++ o.display)

end Instruction

/-- The executable form of one script. -/
structure Program where
  id : ScriptId
  instructions : Array Instruction
  behaviors : IndexMap Int
  tracks : IndexMap Int

namespace Program

def trackStart? (p : Program) (track : Int) : Option Nat := p.tracks.keyOf? track

def behaviorStart? (p : Program) (behavior : Int) : Option Nat := p.behaviors.keyOf? behavior

end Program

structure ActorPrograms where
  life : Program
  moves : Program

def ActorPrograms.program (a : ActorPrograms) : ScriptKind → Program
  | .life => a.life
  | .move => a.moves

end SceneScript
