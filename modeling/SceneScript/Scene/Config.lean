import SceneScript.Json.Record

/-! # Scene settings -/

namespace SceneScript

/-- How a scene runs its scripts: how many instructions one script may execute in one call, whether
the commands of side scenes, such as sounds, are passed over, and whether visits are recorded. -/
structure Config where
  gasLimit : Nat := 10000
  headless : Bool := false
  trace : Bool := false
  deriving DecidableEq, Repr, Inhabited

namespace Config

def toJson (c : Config) : Json :=
  .obj [("gas_limit", .nat c.gasLimit), ("headless", .bool c.headless), ("trace", .bool c.trace)]

def fieldNames : List String := ["gas_limit", "headless", "trace"]

/-- The settings of a JSON form: an object, or a list of leading settings. -/
def fields? : Json → Option (String → Option Json)
  | .obj fields => some fun name => fields.lookup name
  | .arr items =>
    if items.length ≤ fieldNames.length then some fun name => (fieldNames.zip items).lookup name
    else none
  | _ => none

def setting {α : Type} (fields : String → Option Json) (name : String) (otherwise : α)
    (read : Json → Option α) : Option α :=
  match fields name with
  | none => some otherwise
  | some j => read j

/-- Settings read from their JSON form; each may be missing, but none may be null. -/
def ofJson? (j : Json) : Option Config := do
  let fields ← fields? j
  let gasLimit ← setting fields "gas_limit" ({} : Config).gasLimit Json.size?
  let headless ← setting fields "headless" ({} : Config).headless Json.bool?
  let trace ← setting fields "trace" ({} : Config).trace Json.bool?
  return { gasLimit, headless, trace }

end Config

end SceneScript
