import SceneScript.Wire.Basic

/-! # Writing wire values

A writer collects bytes. Its position is the number of bytes written, which is the offset
of the next one, so a forward jump is written as a placeholder and patched later. -/

namespace SceneScript

structure Writer where
  bytes : List UInt8 := []
  deriving DecidableEq, Repr

namespace Writer

def position (w : Writer) : Nat := w.bytes.length

def put (w : Writer) (bytes : List UInt8) : Writer := ⟨w.bytes ++ bytes⟩

def word (w : Writer) (width : Nat) (n : Int) : Writer :=
  w.put (littleEndian width (n % byteRange width).toNat)

/-- Write a text and its closing zero. -/
def text (w : Writer) (s : String) : Writer := w.put (textBytes s)

/-- Write an integer as a wire type lays it out. -/
def value (w : Writer) (ty : WireType) (n : Int) : Writer := w.put (ty.bytes n)

/-- Overwrite two bytes written before; nothing happens where two bytes do not fit. -/
def patch (w : Writer) (offset : Nat) (n : Nat) : Writer :=
  if offset + 2 ≤ w.bytes.length then
    ⟨w.bytes.take offset ++ littleEndian 2 n ++ w.bytes.drop (offset + 2)⟩
  else w

/-- Take what was written and start anew. -/
def finish (w : Writer) : List UInt8 × Writer := (w.bytes, {})

end Writer

end SceneScript
