import SceneScript.Program.Basic
import SceneScript.Scene.Fault
import SceneScript.Scene.State

/-! # Hosts

The game behind the scripts. The engine runs control flow and bookkeeping by itself and
hands every other command, and every predicate but the track queries, to a host. A host is
any pair of functions over a state of its own: it may answer, fail, and change the state
of the actor that calls it. -/

namespace SceneScript

/-- What happens after an instruction. The call goes on behind it or at another one; or it stops,
and the next call resumes at the same instruction (`suspend`), at another one (`yieldTo`) or not at
all. -/
inductive Flow where
  | advance
  | jump (index : Nat)
  | suspend
  | yieldTo (index : Nat)
  | terminate
  deriving DecidableEq, Repr, Inhabited

namespace Flow

def toJson : Flow → Json
  | .advance => .str "Advance"
  | .jump index => .obj [("Jump", .nat index)]
  | .suspend => .str "Suspend"
  | .yieldTo index => .obj [("YieldTo", .nat index)]
  | .terminate => .str "Terminate"

def ofJson? (j : Json) : Option Flow :=
  match j.bareChoice? with
  | some "Advance" => some .advance
  | some "Suspend" => some .suspend
  | some "Terminate" => some .terminate
  | _ =>
    match j.choice? with
    | some ("Jump", some index) => index.size?.map .jump
    | some ("YieldTo", some index) => index.size?.map .yieldTo
    | _ => none

/-- The state of a script after an instruction at `offset`. -/
def apply (f : Flow) (offset : Nat) (s : ScriptState) : ScriptState :=
  match f with
  | .advance => { s with offset := offset + 1 }
  | .jump index => { s with offset := index }
  | .suspend => { s with reentry := some offset, running := false }
  | .yieldTo index => { s with reentry := some index, running := false }
  | .terminate => s.terminate

end Flow

/-- The time of a frame, in seconds since the scene started and since the frame before. -/
structure FrameTime where
  elapsed : Binary64 := .zero
  delta : Binary64 := .zero
  deriving DecidableEq, Repr, Inhabited

def FrameTime.next (t : FrameTime) (delta : Binary64) : FrameTime := ⟨t.elapsed.add delta, delta⟩

/-- A command handed to the host, with its scratch record if its opcode keeps one, the value of its
condition and whether this value passes its comparison. -/
structure HostCall where
  script : ScriptId
  opcode : Opcode
  offset : Nat
  callState : Option CallState
  condition : Option Int
  passed : Option Bool
  operands : List Operand
  time : FrameTime
  actor : ActorState

def HostCall.number (c : HostCall) (index : Nat) : Except HostError Int :=
  match c.operands[index]?.bind Operand.number? with
  | some n => .ok n
  | none => .error (.badOperand index (c.opcode.name ++ " expects a number"))

/-- What a host makes of a call: a flow, and the states of the calling actor and the scratch record
as they are afterwards. -/
structure HostReply where
  flow : Except HostError Flow
  actor : ActorState
  callState : Option CallState

structure HostQuery where
  script : ScriptId
  predicate : Predicate
  param : Option Operand
  time : FrameTime
  actor : ActorState

/-- A game with states of type `σ`. -/
structure Host (σ : Type) where
  execute : HostCall → σ → HostReply × σ
  evaluate : HostQuery → σ → Except HostError Int × σ

end SceneScript
