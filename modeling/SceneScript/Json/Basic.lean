import SceneScript.Number.Binary64

/-! # JSON values

Save files and tools exchange JSON. Integers and decimals are kept apart: a number
written without fraction and exponent that fits in 64 bits, signed or unsigned, is an
integer, and a field that holds a count never accepts a decimal. Object fields keep their
order and have distinct names. -/

namespace SceneScript

inductive Json where
  | null
  | bool (b : Bool)
  | int (n : Int)
  | float (x : Binary64)
  | str (s : String)
  | arr (items : List Json)
  | obj (fields : List (String × Json))
  deriving Repr, Inhabited

namespace Json

/-- An object field, if the value is an object that has it. -/
def field? (j : Json) (name : String) : Option Json :=
  match j with
  | .obj fields => fields.lookup name
  | _ => none

/-- A list of fields with one of them set: replaced in place, or added at the end. -/
def setField (name : String) (v : Json) : List (String × Json) → List (String × Json)
  | [] => [(name, v)]
  | (n, w) :: rest => if n = name then (n, v) :: rest else (n, w) :: setField name v rest

def nat (n : Nat) : Json := .int n

def opt {α : Type} (f : α → Json) : Option α → Json
  | none => .null
  | some a => f a

def list {α : Type} (f : α → Json) (xs : List α) : Json := .arr (xs.map f)

end Json

end SceneScript
