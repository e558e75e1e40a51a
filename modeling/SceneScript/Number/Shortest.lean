import SceneScript.Number.Binary64

/-! # Shortest decimal text

A finite number is `m · 2 ^ q` for a natural significand `m`. The decimals that read back
as it form an interval around it whose ends belong to it when `m` is even. `shortest`
looks at the two neighbours of the number on the grid of `1, 2, … 17` digits and takes the
first grid that has a point in the interval; of two points the nearer, and the upper one
when they are equally near.

The text is positional while the leading digit stands between `10 ^ (-4)` and `10 ^ 15`
and keeps at least one decimal place; outside that range it is scientific. -/

namespace SceneScript

namespace Binary64

/-! ### Fields of a word -/

def negative (x : Binary64) : Bool := x.bits.toNat / 0x8000000000000000 == 1

def exponentField (x : Binary64) : Nat := x.bits.toNat / 0x10000000000000 % 0x800

def fraction (x : Binary64) : Nat := x.bits.toNat % 0x10000000000000

/-- The significand `m` of a finite number `m · 2 ^ q`. -/
def significand (x : Binary64) : Nat :=
  if x.exponentField = 0 then x.fraction else 0x10000000000000 + x.fraction

/-- The power `q` of a finite number `m · 2 ^ q`. -/
def power (x : Binary64) : Int :=
  if x.exponentField = 0 then -1074 else (x.exponentField : Int) - 1075

end Binary64

/-! ### Digits -/

/-- A decimal `digits · 10 ^ exponent`. -/
structure Decimal where
  digits : Nat
  exponent : Int
  deriving DecidableEq, Repr

namespace Decimal

/-- A positive rational `num / den`, enough to compare points of a decimal grid. -/
structure Ratio where
  num : Nat
  den : Nat

def Ratio.scaled (n b : Nat) (e : Int) : Ratio :=
  if 0 ≤ e then ⟨n * Nat.pow b e.toNat, 1⟩ else ⟨n, Nat.pow b (-e).toNat⟩

def Ratio.le (x y : Ratio) : Bool := x.num * y.den ≤ y.num * x.den

def Ratio.lt (x y : Ratio) : Bool := x.num * y.den < y.num * x.den

/-- The interval of reals that round to a number, its ends included or not. -/
structure Interval where
  lower : Ratio
  upper : Ratio
  closed : Bool

def Interval.contains (i : Interval) (x : Ratio) : Bool :=
  if i.closed then i.lower.le x && x.le i.upper else i.lower.lt x && x.lt i.upper

/-- The rounding interval of the positive number `m · 2 ^ q`. Below a power of two the
neighbour is half as far, except at the bottom of the range. -/
def interval (m : Nat) (q : Int) : Interval :=
  let lower := if m = 0x10000000000000 ∧ -1074 < q then Ratio.scaled (4 * m - 1) 2 (q - 2)
    else Ratio.scaled (2 * m - 1) 2 (q - 1)
  ⟨lower, Ratio.scaled (2 * m + 1) 2 (q - 1), m % 2 == 0⟩

/-- The place of the leading digit: the greatest `e` with `10 ^ e ≤ x`, searched downwards
from `e` for at most `fuel` places. -/
def leadingPlace (x : Ratio) : Nat → Int → Int
  | 0, e => e
  | fuel + 1, e => if (Ratio.scaled 1 10 e).le x then e else leadingPlace x fuel (e - 1)

/-- The neighbour of `x` on the grid of `10 ^ e` that lies in the interval, if any. -/
def onGrid? (i : Interval) (x : Ratio) (e : Int) : Option Decimal :=
  let unit := Ratio.scaled 1 10 e
  let below := x.num * unit.den / (x.den * unit.num)
  let low := Ratio.scaled below 10 e
  let high := Ratio.scaled (below + 1) 10 e
  let lowIn := i.contains low
  let highIn := i.contains high
  -- twice `x` against the sum of its neighbours
  let twice : Ratio := ⟨2 * x.num, x.den⟩
  let middle := Ratio.scaled (2 * below + 1) 10 e
  if lowIn && (!highIn || twice.lt middle) then some ⟨below, e⟩
  else if highIn then some ⟨below + 1, e⟩
  else none

/-- The first grid of `1, 2, …` digits with a point in the interval. -/
def firstGrid (i : Interval) (x : Ratio) (lead : Int) : Nat → Decimal
  | 0 => ⟨0, 0⟩
  | fuel + 1 =>
    match onGrid? i x (lead - (17 - (fuel + 1))) with
    | some d => d
    | none => firstGrid i x lead fuel

/-- The shortest decimal that reads back as the positive number `m · 2 ^ q`. -/
def shortest (m : Nat) (q : Int) : Decimal :=
  let x := Ratio.scaled m 2 q
  firstGrid (interval m q) x (leadingPlace x 640 309) 17

/-- Decimal digits without trailing zeros, and the place of the leading one. -/
def significant (d : Decimal) : List Char × Int :=
  let digits := Nat.toDigits 10 d.digits
  let kept := (digits.reverse.dropWhile (· == '0')).reverse
  (kept, d.exponent + (digits.length : Int) - 1)

end Decimal

/-! ### Text -/

namespace Binary64

def positional (digits : List Char) (lead : Int) : List Char :=
  if lead < 0 then
    ['0', '.'] ++ List.replicate ((-lead).toNat - 1) '0' ++ digits
  else
    let whole := lead.toNat + 1
    let padded := digits ++ List.replicate (whole - digits.length) '0'
    let places := padded.drop whole
    padded.take whole ++ ['.'] ++ (if places.isEmpty then ['0'] else places)

def scientific (digits : List Char) (lead : Int) : List Char :=
  let places := digits.drop 1
  digits.take 1 ++ (if places.isEmpty then [] else '.' :: places) ++ ['e'] ++ (toString lead).toList

def text (x : Binary64) : String :=
  if x.isNaN then "NaN"
  else
    let body :=
      if x.exponentField = 2047 then "inf".toList
      else if x.significand = 0 then "0.0".toList
      else
        let (digits, lead) := (Decimal.shortest x.significand x.power).significant
        if -4 ≤ lead ∧ lead < 16 then positional digits lead else scientific digits lead
    String.ofList (if x.negative then '-' :: body else body)

end Binary64

end SceneScript
