/-! # Hexadecimal text

Two digits per byte. Writing is lower case; reading takes either case and an even number
of digits. -/

namespace SceneScript.Text

def hexDigit (n : Nat) : Char :=
  if n < 10 then Char.ofNat (48 + n) else Char.ofNat (87 + n)

/-- The value of a hexadecimal digit of either case. -/
def hexValue? (c : Char) : Option Nat :=
  if '0' ≤ c ∧ c ≤ '9' then some (c.toNat - 48)
  else if 'a' ≤ c ∧ c ≤ 'f' then some (c.toNat - 87)
  else if 'A' ≤ c ∧ c ≤ 'F' then some (c.toNat - 55)
  else none

def hexByte (b : UInt8) : List Char :=
  [hexDigit (b.toNat / 16), hexDigit (b.toNat % 16)]

/-- Bytes as lower-case hexadecimal text. -/
def hexOfBytes (bytes : List UInt8) : String :=
  String.ofList (bytes.flatMap hexByte)

def bytesOfHexDigits? : List Char → Option (List UInt8)
  | [] => some []
  | [_] => none
  | hi :: lo :: rest => do
    let h ← hexValue? hi
    let l ← hexValue? lo
    let bytes ← bytesOfHexDigits? rest
    return UInt8.ofNat (16 * h + l) :: bytes

/-- Bytes read from hexadecimal text; an odd digit or a foreign character is refused. -/
def bytesOfHex? (s : String) : Option (List UInt8) :=
  bytesOfHexDigits? s.toList

/-- A byte as two upper-case digits, the form error messages use. -/
def hexUpper (b : UInt8) : String :=
  String.ofList ((hexByte b).map Char.toUpper)

def hexOfWord (w : UInt64) : String :=
  String.ofList <| (List.range 16).map fun i => hexDigit (w.toNat / Nat.pow 16 (15 - i) % 16)

def wordOfHex? (s : String) : Option UInt64 := do
  let digits ← s.toList.mapM hexValue?
  if digits.length = 16 then some (UInt64.ofNat (digits.foldl (fun n d => 16 * n + d) 0)) else none

end SceneScript.Text
