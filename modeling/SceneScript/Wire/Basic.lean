/-! # Wire types

Scripts are byte strings. An argument is an integer of one, two or four bytes, low byte
first, signed or not, or a text that ends at the next zero byte. A text holds one
character per byte, so only characters up to code 255 have a form of their own; the others
are written as a question mark.

* `WireType.size?` is the fixed width in bytes, none for texts;
* `WireType.number` is the integer a group of bytes stands for;
* `WireType.bytes` is the group that stands for an integer, reduced to the type's width.

A group of bytes and its natural number determine each other:
`littleEndian_littleEndianValue` and `littleEndianValue_littleEndian`. -/

namespace SceneScript

/-- How one argument is laid out in bytes. -/
inductive WireType where
  | int8
  | uint8
  | int16
  | uint16
  | int32
  | uint32
  | text
  deriving DecidableEq, Repr, Inhabited

/-! ### Bytes and naturals -/

def littleEndianValue : List UInt8 → Nat
  | [] => 0
  | b :: rest => b.toNat + 256 * littleEndianValue rest

/-- The low `width` bytes of a natural number, low byte first. -/
def littleEndian : (width : Nat) → Nat → List UInt8
  | 0, _ => []
  | width + 1, n => UInt8.ofNat n :: littleEndian width (n / 256)

def byteRange (width : Nat) : Nat := Nat.pow 256 width

def charOfByte (b : UInt8) : Char := Char.ofNat b.toNat

/-- The byte of a character of text, a question mark if it has none. -/
def byteOfChar (c : Char) : UInt8 := if c.toNat < 256 then UInt8.ofNat c.toNat else 63

/-- The bytes of a text and the zero that ends it. -/
def textBytes (s : String) : List UInt8 := s.toList.map byteOfChar ++ [0]

/-! ### Laws of bytes -/

theorem byteRange_succ (width : Nat) : byteRange (width + 1) = 256 * byteRange width :=
  Nat.mul_comm _ _

@[simp] theorem length_littleEndian (width n : Nat) : (littleEndian width n).length = width := by
  induction width generalizing n with
  | zero => rfl
  | succ width ih => simp [littleEndian, ih]

theorem littleEndianValue_lt (bytes : List UInt8) :
    littleEndianValue bytes < byteRange bytes.length := by
  induction bytes with
  | nil => exact Nat.one_pos
  | cons b rest ih =>
    have hb := b.toNat_lt
    rw [List.length_cons, byteRange_succ, littleEndianValue]
    omega

/-- Bytes written read back as the number, reduced to their range. -/
theorem littleEndianValue_littleEndian (width n : Nat) :
    littleEndianValue (littleEndian width n) = n % byteRange width := by
  induction width generalizing n with
  | zero => exact (Nat.mod_one n).symm
  | succ width ih =>
    rw [littleEndian, littleEndianValue, ih, byteRange_succ, Nat.mod_mul, UInt8.toNat_ofNat']

theorem littleEndian_littleEndianValue (bytes : List UInt8) :
    littleEndian bytes.length (littleEndianValue bytes) = bytes := by
  induction bytes with
  | nil => rfl
  | cons b rest ih =>
    have hb := b.toNat_lt
    have hd : (b.toNat + 256 * littleEndianValue rest) / 256 = littleEndianValue rest := by omega
    have hm : UInt8.ofNat (b.toNat + 256 * littleEndianValue rest) = b := by
      apply UInt8.toNat_inj.mp
      rw [UInt8.toNat_ofNat']
      omega
    rw [List.length_cons, littleEndianValue, littleEndian, hd, hm, ih]

theorem toNat_charOfByte (b : UInt8) : (charOfByte b).toNat = b.toNat := by
  have hv : b.toNat.isValidChar := Or.inl (Nat.lt_trans b.toNat_lt (by decide))
  rw [charOfByte, Char.ofNat, dif_pos hv]
  rfl

@[simp] theorem byteOfChar_charOfByte (b : UInt8) : byteOfChar (charOfByte b) = b := by
  simp [byteOfChar, toNat_charOfByte, b.toNat_lt]

namespace WireType

/-- Width in bytes, none for texts. -/
def size? : WireType → Option Nat
  | .int8 | .uint8 => some 1
  | .int16 | .uint16 => some 2
  | .int32 | .uint32 => some 4
  | .text => none

def signed : WireType → Bool
  | .int8 | .int16 | .int32 => true
  | _ => false

/-- An integer reduced to `width` bytes, in two's complement when the type is signed. -/
def reduce (ty : WireType) (width : Nat) (n : Int) : Int :=
  if ty.signed then n.bmod (byteRange width) else n % byteRange width

def number (ty : WireType) (bytes : List UInt8) : Int :=
  ty.reduce bytes.length (littleEndianValue bytes)

/-- The bytes that stand for an integer; a text takes its decimal form. -/
def bytes (ty : WireType) (n : Int) : List UInt8 :=
  match ty.size? with
  | some width => littleEndian width (n % byteRange width).toNat
  | none => textBytes (toString n)

def name : WireType → String
  | .int8 => "Int8"
  | .uint8 => "Uint8"
  | .int16 => "Int16"
  | .uint16 => "Uint16"
  | .int32 => "Int32"
  | .uint32 => "Uint32"
  | .text => "String"

def all : List WireType := [.int8, .uint8, .int16, .uint16, .int32, .uint32, .text]

def ofName? (s : String) : Option WireType := all.find? fun ty => ty.name == s

end WireType

end SceneScript
