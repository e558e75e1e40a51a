import SceneScript.Scene.Host

/-! # One instruction

`execute` runs one instruction and says what happens next. An instruction may read and
write the states of all actors, its own scratch record and the host; its operands are
checked before anything is written, so an instruction of the engine that faults has
changed nothing but the host it asked. -/

namespace SceneScript

/-! ### What an instruction works on -/

/-- Everything an instruction may change: the states of all actors, in scene order, its own scratch
record and the game. -/
structure World (σ : Type) where
  states : Array ActorState
  callState : CallState
  host : σ

/-- Where and when an instruction runs. -/
structure Site where
  script : ScriptId
  offset : Nat
  time : FrameTime

namespace World

variable {σ : Type}

def actor (w : World σ) (a : Nat) : ActorState := w.states.getD a {}

def modifyActor (w : World σ) (a : Nat) (f : ActorState → ActorState) : World σ :=
  { w with states := w.states.modify a f }

def modifyScript (w : World σ) (id : ScriptId) (f : ScriptState → ScriptState) : World σ :=
  w.modifyActor id.actor fun a => a.modify id.kind f

end World

/-- An action that may fault and keeps what it changed either way. -/
abbrev Exec (σ : Type) := ExceptT Fault (StateM (World σ))

/-! ### Operands -/

namespace Instruction

def targetAt (i : Instruction) (slot : Nat) : Except Flaw Nat :=
  match i.operands[slot]? with
  | some (.target t) => .ok t
  | some (.unresolved n) => .error (.unresolvedJump n)
  | _ => .error .missingTarget

def numberAt (i : Instruction) (slot : Nat) : Except Flaw Int :=
  match i.operands[slot]?.bind Operand.number? with
  | some n => .ok n
  | none => .error (.notANumber slot)

def comparison (i : Instruction) : Except Flaw BoundTest :=
  match i.test with
  | some t => .ok t
  | none => .error .missingOperator

def predicate (i : Instruction) : Except Flaw BoundCondition :=
  match i.condition with
  | some k => .ok k
  | none => .error .missingCondition

end Instruction

/-- The actor an operand names, in a scene of `count` actors. -/
def actorOperand (count : Nat) : Option Operand → Except Flaw Nat
  | some (.actor a) => if a < count then .ok a else .error (.noActor a)
  | some (.unresolved n) => .error (.unresolvedActor n)
  | _ => .error .missingActor

namespace Step

variable {σ : Type}

/-- A checked operand, or the instruction's fault. -/
def demand {α : Type} (i : Instruction) (r : Except Flaw α) : Exec σ α :=
  match r with
  | .ok a => pure a
  | .error flaw => throw (.broken i.label flaw)

def actorOf (i : Instruction) (operand : Option Operand) : Exec σ Nat := do
  demand i (actorOperand (← get).states.size operand)

def own (site : Site) : Exec σ ScriptState := do
  return ((← get).actor site.script.actor).get site.script.kind

def modifyOwn (site : Site) (f : ScriptState → ScriptState) : Exec σ Unit :=
  modify fun w => w.modifyScript site.script f

def modifyLife (actor : Nat) (f : ScriptState → ScriptState) : Exec σ Unit :=
  modify fun w => w.modifyScript (.life actor) f

def modifyMoves (actor : Nat) (f : ScriptState → ScriptState) : Exec σ Unit :=
  modify fun w => w.modifyScript (.move actor) f

/-- The scratch record of the instruction, if its opcode keeps one. -/
def callState (i : Instruction) : Exec σ CallState := do
  if i.opcode.needsCallState then return (← get).callState
  else throw (.broken i.label .noCallState)

def setCallState (s : CallState) : Exec σ Unit := modify fun w => { w with callState := s }

/-! ### Conditions -/

/-- What the track predicates report for an actor without an active track. -/
def noTrack : Int := -1

def currentTrack (a : ActorState) : Int := a.moves.track.getD noTrack

def evaluate (host : Host σ) (site : Site) (i : Instruction) (k : BoundCondition) : Exec σ Int :=
  match k.predicate.source with
  | .ownTrack => do return currentTrack ((← get).actor site.script.actor)
  | .actorTrack => do
    let a ← actorOf i k.param
    return currentTrack ((← get).actor a)
  | .host => fun w =>
    let query : HostQuery :=
      { script := site.script
        predicate := k.predicate
        param := k.param
        time := site.time
        actor := w.actor site.script.actor }
    let (answer, host) := host.evaluate query w.host
    (answer.mapError (.host i.label), { w with host })

def test (host : Host σ) (site : Site) (i : Instruction) : Exec σ Bool := do
  let k ← demand i i.predicate
  let value ← evaluate host site i k
  let t ← demand i i.comparison
  return t.passes value

def branch (jump : Bool) (target : Nat) : Flow := if jump then .jump target else .advance

def jumpUnless (host : Host σ) (site : Site) (i : Instruction) : Exec σ Flow := do
  let dest ← demand i (i.targetAt 0)
  let passed ← test host site i
  return branch (!passed) dest

def jumpIf (host : Host σ) (site : Site) (i : Instruction) : Exec σ Flow := do
  let dest ← demand i (i.targetAt 0)
  let passed ← test host site i
  return branch passed dest

/-- Go on only when the test passes now and did not the time before. -/
def risingEdge (host : Host σ) (site : Site) (i : Instruction) : Exec σ Flow := do
  let dest ← demand i (i.targetAt 0)
  let passed ← test host site i
  let s ← callState i
  setCallState { s with latch := passed }
  return branch (!(passed && !s.latch)) dest

/-- Go on only the first time the test passes. -/
def onlyOnce (host : Host σ) (site : Site) (i : Instruction) : Exec σ Flow := do
  let dest ← demand i (i.targetAt 0)
  let passed ← test host site i
  let s ← callState i
  setCallState { s with used := s.used || passed }
  return branch (!(passed && !s.used)) dest

/-! ### Switches -/

/-- Evaluate the condition and keep its value for the labels. -/
def openSwitch (host : Host σ) (site : Site) (i : Instruction) : Exec σ Flow := do
  let k ← demand i i.predicate
  let value ← evaluate host site i k
  modifyOwn site fun s => { s with switchValue := some value }
  return .advance

/-- Compare the kept value; jump when the outcome is `jumpOn`. -/
def caseLabel (site : Site) (i : Instruction) (jumpOn : Bool) : Exec σ Flow := do
  let dest ← demand i (i.targetAt 0)
  let s ← own site
  match s.switchValue with
  | none => throw (.broken i.label .noSwitchValue)
  | some value =>
    let t ← demand i i.comparison
    return branch (t.passes value == jumpOn) dest

/-! ### Behaviors -/

/-- End the behavior: go to the one chosen next, else start it again. -/
def endBehavior (site : Site) : Exec σ Flow := do
  let s ← own site
  modifyOwn site fun s => { s with nextBehavior := none }
  return .yieldTo ((s.nextBehavior.or s.behaviorOffset).getD 0)

def saveBehavior (s : ScriptState) : ScriptState := { s with savedOffset := s.behaviorOffset }

def setBehaviorOf (i : Instruction) : Exec σ Flow := do
  let a ← actorOf i i.operands[0]?
  let dest ← demand i (i.targetAt 1)
  modifyLife a fun s => { s with reentry := some dest }
  return .advance

def restoreBehavior (site : Site) : Exec σ Flow := do
  let s ← own site
  match s.savedOffset with
  | some saved => return .yieldTo saved
  | none => return .advance

/-- Send an actor's life script back to its remembered behavior. The running script itself
returns at once. -/
def restoreBehaviorOf (site : Site) (i : Instruction) : Exec σ Flow := do
  let a ← actorOf i i.operands[0]?
  match ((← get).actor a).life.savedOffset with
  | none => return .advance
  | some saved =>
    if (ScriptId.life a) = site.script then return .yieldTo saved
    else
      modifyLife a fun s => { s with reentry := some saved }
      return .advance

/-! ### Tracks -/

/-- Remember the active track and stop the move script. -/
def stopTrack (s : ScriptState) : ScriptState :=
  { s with savedOffset := s.trackOffset, reentry := none }

/-- Resume the move script at the remembered track, if there is one. -/
def restoreTrack (s : ScriptState) : ScriptState :=
  match s.savedOffset with
  | some saved => { s with reentry := some saved }
  | none => s

def declareTrack (site : Site) (i : Instruction) : Exec σ Flow := do
  let n ← demand i (i.numberAt 0)
  modifyOwn site fun s => { s with track := some n, trackOffset := some site.offset }
  return .advance

def setTrackOf (i : Instruction) : Exec σ Flow := do
  let a ← actorOf i i.operands[0]?
  let dest ← demand i (i.targetAt 1)
  modifyMoves a fun s => { s with reentry := some dest }
  return .advance

/-! ### Waits -/

/-- How long a wait lasts: its first operand in seconds or tenths of seconds. -/
def waitLength (i : Instruction) (count : Int) : Binary64 :=
  if i.operation = .waitDeciseconds then (Binary64.ofInt count).mul .tenth else .ofInt count

/-- Wait: set a deadline the first time, stop until a frame has reached it. -/
def wait (site : Site) (i : Instruction) : Exec σ Flow := do
  let count ← demand i (i.numberAt 0)
  let s ← callState i
  let elapsed := site.time.elapsed
  let deadline := s.deadline.getD (elapsed.add (waitLength i count))
  if elapsed.lt deadline then
    setCallState { s with deadline := some deadline }
    return .suspend
  else
    setCallState { s with deadline := none }
    return .advance

/-! ### Everything else -/

/-- Hand an instruction to the host, with the value of its condition. -/
def callHost (host : Host σ) (site : Site) (i : Instruction) : Exec σ Flow := do
  let condition ←
    match i.condition with
    | some k => do
      let value ← evaluate host site i k
      pure (some value)
    | none => pure none
  let passed :=
    match i.test, condition with
    | some t, some value => some (t.passes value)
    | _, _ => none
  fun w =>
    let call : HostCall :=
      { script := site.script
        opcode := i.opcode
        offset := site.offset
        callState := if i.opcode.needsCallState then some w.callState else none
        condition, passed
        operands := i.operands
        time := site.time
        actor := w.actor site.script.actor }
    let (reply, host) := host.execute call w.host
    let callState :=
      if i.opcode.needsCallState then reply.callState.getD w.callState else w.callState
    (reply.flow.mapError (.host i.label),
      { w.modifyActor site.script.actor fun _ => reply.actor with callState, host })

def execute (host : Host σ) (site : Site) (i : Instruction) : Exec σ Flow :=
  match i.operation with
  | .nop | .snif | .neverIf | .noIf | .endIf | .defaultArm => return .advance
  | .finish | .endLife | .halt => return .terminate
  | .offset | .elseThen | .breakOff => do return .jump (← demand i (i.targetAt 0))
  | .goto => do return .yieldTo (← demand i (i.targetAt 0))
  | .ifThen | .andIf => jumpUnless host site i
  | .orIf => jumpIf host site i
  | .swif => risingEdge host site i
  | .oneIf => onlyOnce host site i
  | .switch => openSwitch host site i
  | .caseArm => caseLabel site i false
  | .orCaseArm => caseLabel site i true
  | .endSwitch => do
    modifyOwn site fun s => { s with switchValue := none }
    return .advance
  | .behaviour => do
    modifyOwn site fun s => { s with behaviorOffset := some site.offset }
    return .advance
  | .setBehaviour => do
    let dest ← demand i (i.targetAt 0)
    modifyOwn site fun s => { s with nextBehavior := some dest }
    return .advance
  | .endBehaviour | .ret => endBehavior site
  | .setBehaviourObj => setBehaviorOf i
  | .saveBehaviour => do
    modifyOwn site saveBehavior
    return .advance
  | .restoreBehaviour => restoreBehavior site
  | .saveBehaviourObj => do
    let a ← actorOf i i.operands[0]?
    modifyLife a saveBehavior
    return .advance
  | .restoreBehaviourObj => restoreBehaviorOf site i
  | .track => declareTrack site i
  | .setTrack => do
    let dest ← demand i (i.targetAt 0)
    modifyMoves site.script.actor fun s => { s with reentry := some dest }
    return .advance
  | .setTrackObj => setTrackOf i
  | .stopCurrentTrack => do
    modifyMoves site.script.actor stopTrack
    return .advance
  | .restoreLastTrack => do
    modifyMoves site.script.actor restoreTrack
    return .advance
  | .stopCurrentTrackObj => do
    let a ← actorOf i i.operands[0]?
    modifyMoves a stopTrack
    return .advance
  | .restoreLastTrackObj => do
    let a ← actorOf i i.operands[0]?
    modifyMoves a restoreTrack
    return .advance
  | .waitSeconds | .waitDeciseconds => wait site i
  | .setDirMode | .setDirModeObj | .host => callHost host site i

end Step

end SceneScript
