import SceneScript.Script.Id
import SceneScript.Wire.Basic

/-! # Catalogs

A catalog says how commands are laid out and what they do. It is four tables indexed by
byte code: opcodes of life scripts, opcodes of move scripts, condition predicates and
comparison operators. An entry counts only at the slot its own code names; anywhere else
the slot is vacant.

What an opcode does is one of a closed set of operations: control flow and script
bookkeeping belong to the engine, everything else is `host`, left to the game. -/

namespace SceneScript

/-! ### Argument signatures -/

/-- What an argument refers to. An offset is a byte offset into the same script, a label that of a
behavior or track; everything else is a plain value. -/
inductive Role where
  | value
  | offset
  | actor
  | point
  | label
  deriving DecidableEq, Repr, Inhabited

namespace Role

def name : Role → String
  | .value => "value"
  | .offset => "offset"
  | .actor => "actor"
  | .point => "point"
  | .label => "label"

def all : List Role := [.value, .offset, .actor, .point, .label]

def ofName? (s : String) : Option Role := all.find? fun r => r.name == s

end Role

/-- One entry of an argument signature. Hidden arguments are bookkeeping such as jump
targets. -/
structure Slot where
  wire : WireType
  role : Role := .value
  hidden : Bool := false
  deriving DecidableEq, Repr, Inhabited

namespace Slot

def u8 : Slot := ⟨.uint8, .value, false⟩

def i16 : Slot := ⟨.int16, .value, false⟩

def u16 : Slot := ⟨.uint16, .value, false⟩

def u32 : Slot := ⟨.uint32, .value, false⟩

def text : Slot := ⟨.text, .value, false⟩

def actor : Slot := ⟨.uint8, .actor, false⟩

def point : Slot := ⟨.uint8, .point, false⟩

def label : Slot := ⟨.uint8, .label, false⟩

/-- A jump target nobody sees. -/
def jump : Slot := ⟨.uint16, .offset, true⟩

def offset : Slot := ⟨.uint16, .offset, false⟩

end Slot

/-! ### Operations -/

/-- What the engine does with a command. The direction modes are left to the game like `host`; the
last argument of one decides whether one more follows. -/
inductive Operation where
  | finish
  | endLife
  | nop
  | ret
  | offset
  | goto
  | halt
  | ifThen
  | andIf
  | orIf
  | swif
  | oneIf
  | snif
  | neverIf
  | noIf
  | elseThen
  | endIf
  | switch
  | caseArm
  | orCaseArm
  | defaultArm
  | breakOff
  | endSwitch
  | behaviour
  | setBehaviour
  | setBehaviourObj
  | endBehaviour
  | saveBehaviour
  | restoreBehaviour
  | saveBehaviourObj
  | restoreBehaviourObj
  | track
  | setTrack
  | setTrackObj
  | stopCurrentTrack
  | restoreLastTrack
  | stopCurrentTrackObj
  | restoreLastTrackObj
  | setDirMode
  | setDirModeObj
  | waitSeconds
  | waitDeciseconds
  | host
  deriving DecidableEq, Repr, Inhabited

namespace Operation

def name : Operation → String
  | .finish => "End"
  | .endLife => "EndLife"
  | .nop => "Nop"
  | .ret => "Return"
  | .offset => "Offset"
  | .goto => "Goto"
  | .halt => "Stop"
  | .ifThen => "If"
  | .andIf => "AndIf"
  | .orIf => "OrIf"
  | .swif => "Swif"
  | .oneIf => "OneIf"
  | .snif => "Snif"
  | .neverIf => "NeverIf"
  | .noIf => "NoIf"
  | .elseThen => "Else"
  | .endIf => "EndIf"
  | .switch => "Switch"
  | .caseArm => "Case"
  | .orCaseArm => "OrCase"
  | .defaultArm => "Default"
  | .breakOff => "Break"
  | .endSwitch => "EndSwitch"
  | .behaviour => "Behaviour"
  | .setBehaviour => "SetBehaviour"
  | .setBehaviourObj => "SetBehaviourObj"
  | .endBehaviour => "EndBehaviour"
  | .saveBehaviour => "SaveBehaviour"
  | .restoreBehaviour => "RestoreBehaviour"
  | .saveBehaviourObj => "SaveBehaviourObj"
  | .restoreBehaviourObj => "RestoreBehaviourObj"
  | .track => "Track"
  | .setTrack => "SetTrack"
  | .setTrackObj => "SetTrackObj"
  | .stopCurrentTrack => "StopCurrentTrack"
  | .restoreLastTrack => "RestoreLastTrack"
  | .stopCurrentTrackObj => "StopCurrentTrackObj"
  | .restoreLastTrackObj => "RestoreLastTrackObj"
  | .setDirMode => "SetDirMode"
  | .setDirModeObj => "SetDirModeObj"
  | .waitSeconds => "WaitSeconds"
  | .waitDeciseconds => "WaitDeciseconds"
  | .host => "Host"

def all : List Operation :=
  [.finish, .endLife, .nop, .ret, .offset, .goto, .halt, .ifThen, .andIf, .orIf, .swif, .oneIf,
    .snif, .neverIf, .noIf, .elseThen, .endIf, .switch, .caseArm, .orCaseArm, .defaultArm,
    .breakOff, .endSwitch,
    .behaviour, .setBehaviour, .setBehaviourObj, .endBehaviour, .saveBehaviour, .restoreBehaviour,
    .saveBehaviourObj, .restoreBehaviourObj, .track, .setTrack, .setTrackObj, .stopCurrentTrack,
    .restoreLastTrack, .stopCurrentTrackObj, .restoreLastTrackObj, .setDirMode, .setDirModeObj,
    .waitSeconds, .waitDeciseconds, .host]

def ofName? (s : String) : Option Operation := all.find? fun o => o.name == s

/-- Whether the operation labels an arm of a switch or ends it. -/
def isCaseLabel : Operation → Bool
  | .caseArm | .orCaseArm | .defaultArm | .endSwitch => true
  | _ => false

end Operation

/-! ### Opcodes -/

/-- The catalog entry of an opcode. The arguments follow the signature `slots`, before the condition
and the comparison if `argsFirst` is set. A `precondition` is a chained conditional, which opens no
block; an uncertain layout is read as declared. -/
structure Opcode where
  code : UInt8
  name : String
  operation : Operation
  slots : List Slot := []
  hasCondition : Bool := false
  hasOperator : Bool := false
  argsFirst : Bool := false
  needsCallState : Bool := false
  precondition : Bool := false
  skippedHeadless : Bool := false
  layoutUncertain : Bool := false
  deriving DecidableEq, Repr, Inhabited

namespace Opcode

def engine (code : UInt8) (name : String) (operation : Operation) (slots : List Slot) : Opcode :=
  { code, name, operation, slots }

def game (code : UInt8) (name : String) (slots : List Slot) : Opcode :=
  { code, name, operation := .host, slots }

def conditional (d : Opcode) : Opcode := { d with hasCondition := true, hasOperator := true }

def conditionOnly (d : Opcode) : Opcode := { d with hasCondition := true }

/-- With a comparison against the value of the enclosing switch. -/
def operatorOnly (d : Opcode) : Opcode := { d with hasOperator := true }

def withArgsFirst (d : Opcode) : Opcode := { d with argsFirst := true }

def withCallState (d : Opcode) : Opcode := { d with needsCallState := true }

def asPrecondition (d : Opcode) : Opcode := { d with precondition := true }

def headlessSkip (d : Opcode) : Opcode := { d with skippedHeadless := true }

def uncertain (d : Opcode) : Opcode := { d with layoutUncertain := true }

/-- Whether the command opens a block that an implicit end closes. -/
def opensBlock (d : Opcode) : Bool := d.hasCondition && !d.precondition && !d.slots.isEmpty

end Opcode

/-! ### Conditions and comparisons -/

/-- Where the value of a predicate comes from: the active track of the actor itself or of the one
named by the parameter, or the game. -/
inductive PredicateSource where
  | ownTrack
  | actorTrack
  | host
  deriving DecidableEq, Repr, Inhabited

namespace PredicateSource

def name : PredicateSource → String
  | .ownTrack => "CurrentTrack"
  | .actorTrack => "CurrentTrackObj"
  | .host => "Host"

def ofName? (s : String) : Option PredicateSource :=
  [PredicateSource.ownTrack, .actorTrack, .host].find? fun k => k.name == s

end PredicateSource

/-- The catalog entry of a condition predicate. The literal of a comparison is laid out as
`operand`. -/
structure Predicate where
  code : UInt8
  name : String
  operand : Slot
  param : Option Slot := none
  source : PredicateSource := .host
  deriving DecidableEq, Repr, Inhabited

/-- A comparison of a value with a literal. -/
inductive Comparison where
  | eq
  | gt
  | lt
  | ge
  | le
  | ne
  deriving DecidableEq, Repr, Inhabited

namespace Comparison

def all : List Comparison := [.eq, .gt, .lt, .ge, .le, .ne]

def test : Comparison → Int → Int → Bool
  | .eq, lhs, rhs => lhs == rhs
  | .gt, lhs, rhs => lhs > rhs
  | .lt, lhs, rhs => lhs < rhs
  | .ge, lhs, rhs => lhs ≥ rhs
  | .le, lhs, rhs => lhs ≤ rhs
  | .ne, lhs, rhs => lhs != rhs

def symbol : Comparison → String
  | .eq => "=="
  | .gt => ">"
  | .lt => "<"
  | .ge => ">="
  | .le => "<="
  | .ne => "!="

def name : Comparison → String
  | .eq => "Eq"
  | .gt => "Gt"
  | .lt => "Lt"
  | .ge => "Ge"
  | .le => "Le"
  | .ne => "Ne"

def ofName? (s : String) : Option Comparison := all.find? fun c => c.name == s

end Comparison

structure Operator where
  code : UInt8
  name : String
  comparison : Comparison
  deriving DecidableEq, Repr, Inhabited

/-! ### Tables -/

/-- The entry at a code's own slot, if it is the entry of that code. -/
def entryAt? {α : Type} (codeOf : α → UInt8) (table : Array α) (code : UInt8) : Option α :=
  table[code.toNat]?.filter fun d => codeOf d == code

/-- The four tables that lay out and name commands. -/
structure Catalog where
  life : Array Opcode
  moves : Array Opcode
  conditions : Array Predicate
  operators : Array Operator

namespace Catalog

def opcodes (c : Catalog) : ScriptKind → Array Opcode
  | .life => c.life
  | .move => c.moves

def opcode? (c : Catalog) (kind : ScriptKind) (code : UInt8) : Option Opcode :=
  entryAt? Opcode.code (c.opcodes kind) code

def predicate? (c : Catalog) (code : UInt8) : Option Predicate :=
  entryAt? Predicate.code c.conditions code

def operator? (c : Catalog) (code : UInt8) : Option Operator :=
  entryAt? Operator.code c.operators code

/-- The opcode of an implicit command when the life table has none of its operation. -/
def builtinMarker : Operation → Opcode
  | .endIf => .engine 0x10 "ENDIF" .endIf []
  | .endSwitch => .engine 0x76 "END_SWITCH" .endSwitch []
  | .behaviour => .engine 0x20 "BEHAVIOUR" .behaviour [.label]
  | _ => .engine 0x01 "NOP" .nop []

/-- The opcode of an implicit command: the first of the life table with the operation. -/
def marker (c : Catalog) (operation : Operation) : Opcode :=
  (c.life.find? fun d => d.operation == operation).getD (builtinMarker operation)

end Catalog

end SceneScript
