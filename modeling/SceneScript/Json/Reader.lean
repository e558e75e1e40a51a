import SceneScript.Json.Basic
import SceneScript.Text.Hex

/-! # Reading JSON

A strict reader of one JSON text. Blanks are space, tab, newline and return; arrays and
objects nest at most 127 deep; of two fields with one name the last counts; an escaped
surrogate has to be followed by its partner; a decimal beyond the binary64 range is
refused. An integer literal outside both 64-bit ranges, and negative zero, are decimals.

The reader is structural in a bound on the number of its steps; every step consumes at
least one character, so the length of the text is bound enough. -/

namespace SceneScript.Json

/-! ### Lexical parts -/

def skipBlanks : List Char → List Char :=
  List.dropWhile fun c => c = ' ' || c = '\t' || c = '\n' || c = '\r'

def unit? (a b c d : Char) : Option Nat := do
  let a ← Text.hexValue? a
  let b ← Text.hexValue? b
  let c ← Text.hexValue? c
  let d ← Text.hexValue? d
  return ((a * 16 + b) * 16 + c) * 16 + d

def escapeCode? (c : Char) : Option Nat :=
  match c with
  | '"' => some 0x22
  | '\\' => some 0x5C
  | '/' => some 0x2F
  | 'b' => some 0x08
  | 'f' => some 0x0C
  | 'n' => some 0x0A
  | 'r' => some 0x0D
  | 't' => some 0x09
  | _ => none

/-- Codes of a string up to its closing quote, and what follows it. -/
def stringCodes : List Char → Option (List Nat × List Char)
  | [] => none
  | '"' :: rest => some ([], rest)
  | '\\' :: 'u' :: a :: b :: c :: d :: rest => do
    let u ← unit? a b c d
    let (codes, after) ← stringCodes rest
    return (u :: codes, after)
  | '\\' :: e :: rest => do
    let u ← escapeCode? e
    let (codes, after) ← stringCodes rest
    return (u :: codes, after)
  | c :: rest =>
    if c.toNat < 0x20 then none
    else do
      let (codes, after) ← stringCodes rest
      return (c.toNat :: codes, after)

/-- Characters of a list of codes, surrogate pairs joined. -/
def joinPairs : List Nat → Option (List Char)
  | [] => some []
  | [u] => if 0xD800 ≤ u ∧ u < 0xE000 then none else some [Char.ofNat u]
  | u :: v :: rest =>
    if 0xD800 ≤ u ∧ u < 0xDC00 then
      if 0xDC00 ≤ v ∧ v < 0xE000 then do
        let cs ← joinPairs rest
        return Char.ofNat (0x10000 + (u - 0xD800) * 0x400 + (v - 0xDC00)) :: cs
      else none
    else if 0xDC00 ≤ u ∧ u < 0xE000 then none
    else do
      let cs ← joinPairs (v :: rest)
      return Char.ofNat u :: cs

def string? (cs : List Char) : Option (String × List Char) := do
  let (codes, rest) ← stringCodes cs
  let chars ← joinPairs codes
  return (String.ofList chars, rest)

def digitsValue (ds : List Char) : Nat :=
  ds.foldl (fun n d => 10 * n + (d.toNat - 48)) 0

def digits (cs : List Char) : List Char × List Char :=
  (cs.takeWhile Char.isDigit, cs.dropWhile Char.isDigit)

/-- The nearest binary64 number to `± m · 10 ^ e`, if it is in range. -/
def nearest? (negative : Bool) (m : Nat) (e : Int) : Option Binary64 :=
  let size : Int := (Nat.toDigits 10 m).length
  let magnitude :=
    if m = 0 ∨ size + e < -400 then 0.0
    else if 400 < size + e then Float.ofBits 0x7FF0000000000000
    else Float.ofScientific m (e < 0) e.natAbs
  let signed := Binary64.ofFloat (if negative then -magnitude else magnitude)
  if signed.bits &&& 0x7FF0000000000000 == 0x7FF0000000000000 then none else some signed

/-- The fraction after a point: its digits, none if there is no point. -/
def fraction? : List Char → Option (List Char × List Char)
  | '.' :: rest =>
    let (ds, after) := digits rest
    if ds.isEmpty then none else some (ds, after)
  | cs => some ([], cs)

def signedExponent? (cs : List Char) : Option (Int × List Char) :=
  let (negative, body) :=
    match cs with
    | '-' :: r => (true, r)
    | '+' :: r => (false, r)
    | r => (false, r)
  let (ds, after) := digits body
  if ds.isEmpty then none
  else some (if negative then -(digitsValue ds : Int) else digitsValue ds, after)

def exponent? : List Char → Option (Option Int × List Char)
  | 'e' :: rest => (signedExponent? rest).map fun (e, after) => (some e, after)
  | 'E' :: rest => (signedExponent? rest).map fun (e, after) => (some e, after)
  | cs => some (none, cs)

/-- Whether an integer has a 64-bit form, signed or unsigned. -/
def isWord (n : Int) : Bool := -0x8000000000000000 ≤ n && n < 0x10000000000000000

def number? (cs : List Char) : Option (Json × List Char) := do
  let (negative, body) :=
    match cs with
    | '-' :: r => (true, r)
    | r => (false, r)
  let (whole, rest) := digits body
  if whole.isEmpty || (whole.length > 1 && whole.head? == some '0') then none
  else
    let (places, rest) ← fraction? rest
    let (exponent, rest) ← exponent? rest
    let m := digitsValue (whole ++ places)
    let n : Int := if negative then -(m : Int) else m
    if places.isEmpty && exponent.isNone && isWord n && !(negative && m == 0) then
      return (.int n, rest)
    else
      let x ← nearest? negative m (exponent.getD 0 - places.length)
      return (.float x, rest)

def expect? (word : List Char) (cs : List Char) : Option (List Char) :=
  if word.isPrefixOf cs then some (cs.drop word.length) else none

/-! ### Values -/

mutual

/-- A value, with at most `depth` further levels of nesting. -/
def value? : Nat → Nat → List Char → Option (Json × List Char)
  | 0, _, _ => none
  | fuel + 1, depth, cs =>
    match skipBlanks cs with
    | '"' :: rest => (string? rest).map fun (s, after) => (.str s, after)
    | '[' :: rest =>
      match depth with
      | 0 => none
      | depth + 1 =>
        match skipBlanks rest with
        | ']' :: after => some (.arr [], after)
        | _ => (items? fuel depth rest).map fun (items, after) => (.arr items, after)
    | '\x7b' :: rest =>
      match depth with
      | 0 => none
      | depth + 1 =>
        match skipBlanks rest with
        | '\x7d' :: after => some (.obj [], after)
        | _ => (fields? fuel depth [] rest).map fun (fields, after) => (.obj fields, after)
    | 't' :: rest => (expect? ['r', 'u', 'e'] rest).map (Json.bool true, ·)
    | 'f' :: rest => (expect? ['a', 'l', 's', 'e'] rest).map (Json.bool false, ·)
    | 'n' :: rest => (expect? ['u', 'l', 'l'] rest).map (Json.null, ·)
    | other => number? other

def items? : Nat → Nat → List Char → Option (List Json × List Char)
  | 0, _, _ => none
  | fuel + 1, depth, cs => do
    let (v, rest) ← value? fuel depth cs
    match skipBlanks rest with
    | ',' :: rest =>
      let (vs, after) ← items? fuel depth rest
      return (v :: vs, after)
    | ']' :: after => return ([v], after)
    | _ => none

/-- One or more object fields up to the closing brace, added to those before. -/
def fields? : Nat → Nat → List (String × Json) → List Char →
    Option (List (String × Json) × List Char)
  | 0, _, _, _ => none
  | fuel + 1, depth, before, cs => do
    match skipBlanks cs with
    | '"' :: rest =>
      let (name, rest) ← string? rest
      match skipBlanks rest with
      | ':' :: rest =>
        let (v, rest) ← value? fuel depth rest
        let fields := setField name v before
        match skipBlanks rest with
        | ',' :: rest => fields? fuel depth fields rest
        | '\x7d' :: after => return (fields, after)
        | _ => none
      | _ => none
    | _ => none

end

/-- Deepest nesting of arrays and objects that is read. -/
def maxDepth : Nat := 127

/-- The value of a whole text. -/
def parse? (text : String) : Option Json := do
  let cs := text.toList
  let (v, rest) ← value? (2 * cs.length + 2) maxDepth cs
  if (skipBlanks rest).isEmpty then some v else none

end SceneScript.Json
