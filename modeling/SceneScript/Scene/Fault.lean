import SceneScript.Diagnostic.Basic

/-! # Faults

A fault stops one script and nothing else. It names the instruction by its label where one
is to blame. Each fault has a code under which it is reported and one message. -/

namespace SceneScript

/-- What is wrong with an instruction, or with the state it runs in. -/
inductive Flaw where
  | missingCondition
  | missingOperator
  | missingTarget
  | unresolvedJump (offset : Int)
  | missingActor
  | unresolvedActor (n : Int)
  | noActor (index : Nat)
  | notANumber (slot : Nat)
  | noCallState
  | noSwitchValue
  | other (reason : String)
  deriving DecidableEq, Repr

def Flaw.reason : Flaw → String
  | .missingCondition => "missing condition"
  | .missingOperator => "missing operator"
  | .missingTarget => "missing jump target"
  | .unresolvedJump offset => "unresolved jump to offset " ++ toString offset
  | .missingActor => "missing actor operand"
  | .unresolvedActor n => "unresolved actor " ++ toString n
  | .noActor index => "no " ++ displayActor index
  | .notANumber slot => "operand " ++ toString slot ++ " is not a number"
  | .noCallState => "no call state"
  | .noSwitchValue => "no SWITCH value"
  | .other reason => reason

/-- A failure of the game. -/
inductive HostError where
  | unsupported (name : String)
  | badOperand (index : Nat) (reason : String)
  | failed (reason : String)
  deriving DecidableEq, Repr

def HostError.message : HostError → String
  | .unsupported name => "unsupported: " ++ name
  | .badOperand index reason => "bad operand " ++ toString index ++ ": " ++ reason
  | .failed reason => reason

/-- Why a script was stopped, or a request refused. -/
inductive Fault where
  | broken (label : String) (flaw : Flaw)
  | overrun (offset length : Nat)
  | gasExhausted (limit : Nat)
  | host (label : String) (error : HostError)
  | unknownActor (actor : Nat)
  | snapshotMismatch
  deriving DecidableEq, Repr

namespace Fault

def code : Fault → Nat
  | .broken .. => 400
  | .overrun .. => 401
  | .gasExhausted _ => 402
  | .host .. => 403
  | .unknownActor _ => 300
  | .snapshotMismatch => 404

def message : Fault → String
  | .broken label flaw => "broken script at " ++ label ++ ": " ++ flaw.reason
  | .overrun offset length =>
    "invalid offset " ++ toString offset ++ ", script has " ++ toString length ++ " instructions"
  | .gasExhausted limit => "step budget of " ++ toString limit ++ " exhausted"
  | .host label error => "host failed at " ++ label ++ ": " ++ error.message
  | .unknownActor actor => "no actor " ++ displayActor actor ++ " in scene"
  | .snapshotMismatch => "snapshot does not match the scene's scripts"

/-- Running off a script's end is a warning, every other fault an error. -/
def severity : Fault → Severity
  | .overrun .. => .warning
  | _ => .error

def diagnostic (f : Fault) (scene : Nat) (id : ScriptId) (index : Nat) : Diagnostic :=
  .make f.severity f.code f.message { scene, script := id, command := some index }

end Fault

end SceneScript
