/-! # Binary64 words

Times are binary64 numbers kept as their 64-bit words, so that a value read from outside
comes back with the same bits, whatever they are. Sums, products and comparisons are those
of the machine's floating point; on top of it stands the usual rule for not-a-number
operands: the first such operand is the result, made quiet, and an operation that has no
meaning (opposite infinities added) yields the negative default word. -/

namespace SceneScript

/-- A binary64 number as its word. -/
structure Binary64 where
  bits : UInt64
  deriving DecidableEq, Repr, Inhabited

namespace Binary64

def ofFloat (x : Float) : Binary64 := ⟨x.toBits⟩

def toFloat (x : Binary64) : Float := Float.ofBits x.bits

def zero : Binary64 := ⟨0⟩

def isNaN (x : Binary64) : Bool :=
  x.bits &&& 0x7FFFFFFFFFFFFFFF > 0x7FF0000000000000

/-- The quiet form of a not-a-number word. -/
def quiet (x : Binary64) : Binary64 := ⟨x.bits ||| 0x0008000000000000⟩

def invalid : Binary64 := ⟨0xFFF8000000000000⟩

/-- Lift a machine operation, with the rule for not-a-number operands. -/
def lift (f : Float → Float → Float) (x y : Binary64) : Binary64 :=
  if x.isNaN then x.quiet
  else if y.isNaN then y.quiet
  else
    let r := ofFloat (f x.toFloat y.toFloat)
    if r.isNaN then invalid else r

def add (x y : Binary64) : Binary64 := lift (· + ·) x y

def mul (x y : Binary64) : Binary64 := lift (· * ·) x y

/-- Strictly less; false as soon as a side is not a number. -/
def lt (x y : Binary64) : Bool := x.toFloat < y.toFloat

def ofInt (n : Int) : Binary64 := ofFloat (Float.ofInt n)

def tenth : Binary64 := ofFloat 0.1

end Binary64

end SceneScript
