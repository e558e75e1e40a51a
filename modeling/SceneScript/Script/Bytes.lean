import SceneScript.Script.Command

/-! # The bytes of a command

The layout a command is read from: the opcode's code, then the arguments and the
condition with its comparison, in the order the opcode says. -/

namespace SceneScript

/-- The bytes of an argument as it was read. A linked jump has none. -/
def Argument.bytes (a : Argument) : List UInt8 :=
  match a.value with
  | .number n => a.slot.wire.bytes n
  | .text s => textBytes s
  | .target _ | .unresolved _ => []

def Condition.bytes (k : Condition) : List UInt8 :=
  k.predicate.code :: k.param.toList.flatMap Argument.bytes

def Test.bytes (t : Test) : List UInt8 := t.operator.code :: t.operand.bytes

namespace Command

def argsBytes (c : Command) : List UInt8 := c.args.flatMap Argument.bytes

def guardBytes (c : Command) : List UInt8 :=
  c.condition.toList.flatMap Condition.bytes ++ c.test.toList.flatMap Test.bytes

/-- The bytes of a command. -/
def bytes (c : Command) : List UInt8 :=
  c.opcode.code ::
    (if c.opcode.argsFirst then c.argsBytes ++ c.guardBytes else c.guardBytes ++ c.argsBytes)

end Command

end SceneScript
