import SceneScript.Diagnostic.Basic

/-! # Diagnostic logs

A log keeps errors and warnings apart. Of each it stores the first 64 and counts them all,
so a script that fails every frame cannot fill the memory. Merging appends another log and
keeps the count of what that log did not store. -/

namespace SceneScript

/-- How many errors, and how many warnings, a log stores. -/
def maxStored : Nat := 64

/-- Diagnostics of one severity: the first ones, and the count of all. -/
structure DiagnosticList where
  stored : List Diagnostic := []
  total : Nat := 0
  deriving DecidableEq, Repr, Inhabited

namespace DiagnosticList

/-- Add a diagnostic: stored while there is room, counted always. -/
def push (l : DiagnosticList) (d : Diagnostic) : DiagnosticList :=
  ⟨if l.stored.length < maxStored then l.stored ++ [d] else l.stored, l.total + 1⟩

/-- Append another list and add the count of what it did not store. -/
def merge (l other : DiagnosticList) : DiagnosticList :=
  let pushed := other.stored.foldl push l
  { pushed with total := pushed.total + other.total - other.stored.length }

@[simp] theorem total_push (l : DiagnosticList) (d : Diagnostic) :
    (l.push d).total = l.total + 1 := rfl

theorem total_foldl_push (ds : List Diagnostic) (l : DiagnosticList) :
    (ds.foldl push l).total = l.total + ds.length := by
  induction ds generalizing l with
  | nil => rfl
  | cons d ds ih => rw [List.foldl_cons, ih, total_push, List.length_cons]; omega

theorem total_merge (l other : DiagnosticList) :
    (l.merge other).total = l.total + other.total := by
  simp only [merge, total_foldl_push]; omega

end DiagnosticList

/-- Errors and warnings of a pipeline run and of the frames after it. -/
structure DiagnosticLog where
  errors : DiagnosticList := {}
  warnings : DiagnosticList := {}
  deriving DecidableEq, Repr, Inhabited

namespace DiagnosticLog

def empty : DiagnosticLog := {}

def hasErrors (log : DiagnosticLog) : Bool := 0 < log.errors.total

def hasWarnings (log : DiagnosticLog) : Bool := 0 < log.warnings.total

def isEmpty (log : DiagnosticLog) : Bool := log.errors.total == 0 && log.warnings.total == 0

/-- Add to the errors, whatever the diagnostic's severity. -/
def pushError (log : DiagnosticLog) (d : Diagnostic) : DiagnosticLog :=
  { log with errors := log.errors.push d }

def pushWarning (log : DiagnosticLog) (d : Diagnostic) : DiagnosticLog :=
  { log with warnings := log.warnings.push d }

def push (log : DiagnosticLog) (d : Diagnostic) : DiagnosticLog :=
  match d.severity with
  | .error => log.pushError d
  | .warning => log.pushWarning d

def pushAll (log : DiagnosticLog) (ds : List Diagnostic) : DiagnosticLog := ds.foldl push log

def merge (log other : DiagnosticLog) : DiagnosticLog :=
  ⟨log.errors.merge other.errors, log.warnings.merge other.warnings⟩

/-- The stored diagnostics, errors before warnings. -/
def stored (log : DiagnosticLog) : List Diagnostic := log.errors.stored ++ log.warnings.stored

def contains (log : DiagnosticLog) (code : Nat) : Bool := log.stored.any fun d => d.code == code

def toJson (log : DiagnosticLog) : Json :=
  .obj [
    ("errors", .list Diagnostic.toJson log.errors.stored),
    ("warnings", .list Diagnostic.toJson log.warnings.stored),
    ("total_errors", .nat log.errors.total),
    ("total_warnings", .nat log.warnings.total)]

def ofJson? (j : Json) : Option DiagnosticLog := do
  let fields ← j.record? ["errors", "warnings", "total_errors", "total_warnings"]
  let errors ← Json.required fields "errors" (Json.list? Diagnostic.ofJson?)
  let warnings ← Json.required fields "warnings" (Json.list? Diagnostic.ofJson?)
  let totalErrors ← Json.required fields "total_errors" Json.size?
  let totalWarnings ← Json.required fields "total_warnings" Json.size?
  return ⟨⟨errors, totalErrors⟩, ⟨warnings, totalWarnings⟩⟩

end DiagnosticLog

end SceneScript
