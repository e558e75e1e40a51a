import SceneScript.Catalog.Basic
import SceneScript.Script.Value

/-! # Commands

A command is an opcode with its arguments and, where the opcode has them, a condition and
a comparison. A command read from bytes knows its offset; one the reader added by itself
(the end of a block, the start of a behavior) has none. -/

namespace SceneScript

/-- One argument: its place in a signature and its value. -/
structure Argument where
  slot : Slot
  value : Value
  deriving DecidableEq, Repr, Inhabited

structure Condition where
  predicate : Predicate
  param : Option Argument
  deriving DecidableEq, Repr

structure Test where
  operator : Operator
  operand : Argument
  deriving DecidableEq, Repr

/-- One command of a script, with the offset of its opcode's byte; an added command has none. -/
structure Command where
  opcode : Opcode
  args : List Argument := []
  condition : Option Condition := none
  test : Option Test := none
  offset : Option Nat := none
  deriving DecidableEq, Repr, Inhabited

namespace Command

def implicit (opcode : Opcode) (args : List Argument) : Command := { opcode, args }

def isImplicit (c : Command) : Bool := c.offset.isNone

def name (c : Command) : String := c.opcode.name

/-- The value of the first argument, where branching commands keep their target. -/
def jump? (c : Command) : Option Value := c.args.head?.map Argument.value

def firstNumber? (c : Command) : Option Int := c.jump?.bind Value.number?

/-- The shown form of an argument, an arrow in front of a hidden one. -/
def displayArgument (a : Argument) : String :=
  (if a.slot.hidden then " -> " else " ") ++ a.value.display

def display (c : Command) : String :=
  let condition :=
    match c.condition with
    | none => ""
    | some k => " " ++ k.predicate.name ++
      (match k.param with
      | none => ""
      | some p => "(" ++ p.value.display ++ ")")
  let test :=
    match c.test with
    | none => ""
    | some t => " " ++ t.operator.comparison.symbol ++ " " ++ t.operand.value.display
  c.opcode.name ++ condition ++ test ++ String.join (c.args.map displayArgument)

end Command

end SceneScript
