import SceneScript.Script.Id

/-! # Diagnostics

A diagnostic has a numeric code, a severity, a message and a place. The code's hundred
tells the stage it belongs to: 1 decoding, 2 linking, 3 compiling; all others are raised
while scripts run. -/

namespace SceneScript

/-- How serious a diagnostic is. -/
inductive Severity where
  | error
  | warning
  deriving DecidableEq, Repr, Inhabited

namespace Severity

def name : Severity → String
  | .error => "error"
  | .warning => "warning"

def ofName? (s : String) : Option Severity :=
  [Severity.error, .warning].find? fun v => v.name == s

end Severity

/-- The stage a diagnostic belongs to. -/
inductive Category where
  | decode
  | link
  | compile
  | runtime
  deriving DecidableEq, Repr, Inhabited

namespace Category

def name : Category → String
  | .decode => "decode"
  | .link => "link"
  | .compile => "compile"
  | .runtime => "runtime"

def ofName? (s : String) : Option Category :=
  [Category.decode, .link, .compile, .runtime].find? fun c => c.name == s

/-- The category of a code. -/
def ofCode (code : Nat) : Category :=
  if 100 ≤ code ∧ code < 200 then .decode
  else if 200 ≤ code ∧ code < 300 then .link
  else if 300 ≤ code ∧ code < 400 then .compile
  else .runtime

end Category

def displayCode (code : Nat) : String := "E" ++ toString code

/-- A structured message tied to one script. -/
structure Diagnostic where
  code : Nat
  severity : Severity
  category : Category
  message : String
  location : Location
  deriving DecidableEq, Repr, Inhabited

namespace Diagnostic

/-- A diagnostic whose category follows from its code. -/
def make (severity : Severity) (code : Nat) (message : String) (location : Location) : Diagnostic :=
  ⟨code, severity, Category.ofCode code, message, location⟩

def display (d : Diagnostic) : String :=
  d.location.display ++ ": " ++ displayCode d.code ++ " [" ++ d.category.name ++ "] " ++ d.message

def toJson (d : Diagnostic) : Json :=
  .obj [
    ("code", .nat d.code), ("severity", .str d.severity.name), ("category", .str d.category.name),
    ("message", .str d.message), ("location", d.location.toJson)]

/-- A diagnostic read from its JSON form; the category is taken as given. -/
def ofJson? (j : Json) : Option Diagnostic := do
  let fields ← j.record? ["code", "severity", "category", "message", "location"]
  let code ← Json.required fields "code" Json.word16?
  let severity ← Json.required fields "severity" fun j => j.bareChoice?.bind Severity.ofName?
  let category ← Json.required fields "category" fun j => j.bareChoice?.bind Category.ofName?
  let message ← Json.required fields "message" Json.str?
  let location ← Json.required fields "location" Location.ofJson?
  return ⟨code, severity, category, message, location⟩

end Diagnostic

end SceneScript
