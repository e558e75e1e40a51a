import SceneScript.Wire.Basic
import SceneScript.Script.Value

/-! # Reading wire values

A cursor is a position in a byte string. It may stand past the end, where every read
fails. A read either yields a value and the cursor behind it, or an `Overrun` that names the
position, the bytes the read needed and the length of the string. A text needs one byte
more than remain when no zero byte ends it. -/

namespace SceneScript

structure Overrun where
  offset : Nat
  needed : Nat
  length : Nat
  deriving DecidableEq, Repr

def Overrun.message (e : Overrun) : String :=
  "buffer overrun at offset " ++ toString e.offset ++ ": needed " ++ toString e.needed ++
    " byte(s), buffer is " ++ toString e.length ++ " long"

/-- A position in a byte string, with the bytes from there on at hand. -/
structure Cursor where
  bytes : List UInt8
  position : Nat
  rest : List UInt8
  rest_eq : rest = bytes.drop position

namespace Cursor

/-- The cursor at a position, which may lie past the end. -/
def seek (bytes : List UInt8) (position : Nat) : Cursor :=
  ⟨bytes, position, bytes.drop position, rfl⟩

def start (bytes : List UInt8) : Cursor := ⟨bytes, 0, bytes, rfl⟩

def remaining (c : Cursor) : Nat := c.rest.length

def atEnd (c : Cursor) : Bool := c.rest.isEmpty

def peek? (c : Cursor) : Option UInt8 := c.rest.head?

def advance (c : Cursor) (n : Nat) : Cursor :=
  ⟨c.bytes, c.position + n, c.rest.drop n, by rw [c.rest_eq, List.drop_drop]⟩

def overrun (c : Cursor) (needed : Nat) : Overrun :=
  ⟨c.position, needed, c.bytes.length⟩

def take (c : Cursor) (n : Nat) : Except Overrun (List UInt8 × Cursor) :=
  let group := c.rest.take n
  if group.length = n then .ok (group, c.advance n) else .error (c.overrun n)

def byte (c : Cursor) : Except Overrun (UInt8 × Cursor) :=
  match c.rest with
  | [] => .error (c.overrun 1)
  | b :: _ => .ok (b, c.advance 1)

/-- The text up to the next zero byte, which is consumed with it. -/
def text (c : Cursor) : Except Overrun (String × Cursor) :=
  let body := c.rest.takeWhile (· != 0)
  match c.rest.drop body.length with
  | [] => .error (c.overrun (c.rest.length + 1))
  | _ :: _ => .ok (String.ofList (body.map charOfByte), c.advance (body.length + 1))

/-- The next value of a wire type. -/
def read (c : Cursor) (ty : WireType) : Except Overrun (Value × Cursor) :=
  match ty.size? with
  | some width => (c.take width).map fun (group, after) => (.number (ty.number group), after)
  | none => c.text.map fun (s, after) => (.text s, after)

/-- What a read comes to, and the cursor to go on with: a read that failed leaves it where it was. -/
def settle {α : Type} (c : Cursor) : Except Overrun (α × Cursor) → Except Overrun α × Cursor
  | .ok (a, after) => (.ok a, after)
  | .error e => (.error e, c)

def next (c : Cursor) (ty : WireType) : Except Overrun Value × Cursor := c.settle (c.read ty)

/-! ### Position -/

@[simp] theorem bytes_advance (c : Cursor) (n : Nat) : (c.advance n).bytes = c.bytes := rfl

@[simp] theorem position_advance (c : Cursor) (n : Nat) :
    (c.advance n).position = c.position + n := rfl

theorem remaining_eq (c : Cursor) : c.remaining = c.bytes.length - c.position := by
  rw [remaining, c.rest_eq, List.length_drop]

theorem atEnd_iff (c : Cursor) : c.atEnd = true ↔ c.bytes.length ≤ c.position := by
  rw [atEnd, List.isEmpty_iff, c.rest_eq, List.drop_eq_nil_iff]

end Cursor

end SceneScript
