import SceneScript.Json.Basic

/-! # Reading records from JSON

Typed readers of JSON values. A record is read from an object by the names of its fields,
extra fields ignored, or from an array by their order. A required field has to be there;
an optional one may be missing or null. A choice without data is read from its name, or
from an object with that one name and null. -/

namespace SceneScript.Json

/-! ### Scalars -/

/-- An integer of the half-open range. -/
def intIn? (lo hi : Int) : Json → Option Int
  | .int n => if lo ≤ n ∧ n < hi then some n else none
  | _ => none

/-- A count or index: an unsigned 64-bit integer. -/
def size? (j : Json) : Option Nat := (intIn? 0 0x10000000000000000 j).map Int.toNat

def word32? (j : Json) : Option Nat := (intIn? 0 0x100000000 j).map Int.toNat

def word16? (j : Json) : Option Nat := (intIn? 0 0x10000 j).map Int.toNat

def int64? (j : Json) : Option Int := intIn? (-0x8000000000000000) 0x8000000000000000 j

def bool? : Json → Option Bool
  | .bool b => some b
  | _ => none

def str? : Json → Option String
  | .str s => some s
  | _ => none

/-! ### Compound values -/

def list? {α : Type} (read : Json → Option α) : Json → Option (List α)
  | .arr items => items.mapM read
  | _ => none

def opt? {α : Type} (read : Json → Option α) : Json → Option (Option α)
  | .null => some none
  | j => (read j).map some

/-- The fields of a record as a look-up by name. -/
def record? (names : List String) : Json → Option (String → Option Json)
  | .obj fields => some fun name => fields.lookup name
  | .arr items =>
    if items.length = names.length then some fun name => (names.zip items).lookup name else none
  | _ => none

def required {α : Type} (fields : String → Option Json) (name : String)
    (read : Json → Option α) : Option α :=
  (fields name).bind read

def optional {α : Type} (fields : String → Option Json) (name : String)
    (read : Json → Option α) : Option (Option α) :=
  match fields name with
  | none => some none
  | some j => opt? read j

/-- The name of a choice and the data it carries. -/
def choice? : Json → Option (String × Option Json)
  | .str name => some (name, none)
  | .obj [(name, data)] => some (name, some data)
  | _ => none

def bareChoice? (j : Json) : Option String :=
  match choice? j with
  | some (name, none) => some name
  | some (name, some .null) => some name
  | _ => none

end SceneScript.Json
