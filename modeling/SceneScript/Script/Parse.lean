import SceneScript.Diagnostic.Basic
import SceneScript.Script.Parsed
import SceneScript.Text.Hex
import SceneScript.Wire.Cursor

/-! # Parsing

One pass over the bytes of a script. Conditional blocks have no end of their own in the
bytes, only a jump past the block; the parser keeps the open jumps on a stack and adds an
ENDIF when it reaches one. A switch ends where its labels and breaks lead furthest, unless
the command there is itself a label or the end of a switch. In life scripts every behavior
starts with an added BEHAVIOUR command, at the first byte that is not an END.

A failure stops the script where the failing command starts; everything before it is
kept. -/

namespace SceneScript

/-! ### Failures -/

/-- Why parsing of a script stopped. -/
inductive ParseError where
  | overrun (e : Overrun)
  | unknownOpcode (code : UInt8) (offset : Nat)
  | unknownPredicate (code : UInt8) (offset : Nat)
  | unknownOperator (code : UInt8) (offset : Nat)
  | caseOutsideSwitch (offset : Nat)
  deriving DecidableEq, Repr

namespace ParseError

def code : ParseError → Nat
  | .overrun _ => 100
  | .unknownOpcode .. => 101
  | .unknownPredicate .. => 102
  | .unknownOperator .. => 103
  | .caseOutsideSwitch _ => 104

def unknownMessage (what : String) (code : UInt8) (offset : Nat) : String :=
  "unknown " ++ what ++ " 0x" ++ Text.hexUpper code ++ " at offset " ++ toString offset

def message : ParseError → String
  | .overrun e => e.message
  | .unknownOpcode code offset => unknownMessage "opcode" code offset
  | .unknownPredicate code offset => unknownMessage "condition" code offset
  | .unknownOperator code offset => unknownMessage "operator" code offset
  | .caseOutsideSwitch offset =>
    "case label at offset " ++ toString offset ++ " has no enclosing SWITCH"

end ParseError

/-! ### One command -/

/-- A reader of parts of a command. -/
abbrev Reader := StateT Cursor (Except ParseError)

def readByte : Reader UInt8 := fun c => c.byte.mapError .overrun

def readArgument (slot : Slot) : Reader Argument := fun c =>
  match c.read slot.wire with
  | .ok (v, after) => .ok (⟨slot, v⟩, after)
  | .error e => .error (.overrun e)

def readSlots : List Slot → Reader (List Argument)
  | [] => pure []
  | slot :: rest => do
    let a ← readArgument slot
    let args ← readSlots rest
    return a :: args

/-- The argument that follows a direction mode: an actor for the modes that track one, a
byte for mode nine. -/
def directionSlot? (mode : Int) : Option Slot :=
  if mode ∈ [2, 4, 6, 10, 11] then some .actor
  else if mode = 9 then some .u8
  else none

/-- The argument beyond the signature that a command's arguments call for. -/
def extraSlot? (operation : Operation) (args : List Argument) : Option Slot :=
  match operation with
  | .setDirMode | .setDirModeObj =>
    (args.getLast?.bind fun a => a.value.number?).bind directionSlot?
  | _ => none

def readArguments (opcode : Opcode) : Reader (List Argument) := do
  let args ← readSlots opcode.slots
  match extraSlot? opcode.operation args with
  | none => return args
  | some slot =>
    let extra ← readArgument slot
    return args ++ [extra]

def readCondition (catalog : Catalog) : Reader Condition := do
  let offset := (← get).position
  let code ← readByte
  match catalog.predicate? code with
  | none => throw (.unknownPredicate code offset)
  | some predicate =>
    match predicate.param with
    | none => return ⟨predicate, none⟩
    | some slot =>
      let param ← readArgument slot
      return ⟨predicate, some param⟩

/-- A comparison operator and a literal laid out as the predicate's operand. -/
def readTest (catalog : Catalog) (predicate : Predicate) : Reader Test := do
  let offset := (← get).position
  let code ← readByte
  match catalog.operator? code with
  | none => throw (.unknownOperator code offset)
  | some operator =>
    let operand ← readArgument predicate.operand
    return ⟨operator, operand⟩

/-- The condition and the comparison of a command. Without a condition of its own a
command compares the value of the enclosing switch. -/
def readGuard (catalog : Catalog) (opcode : Opcode) (enclosing : Option Predicate) (start : Nat) :
    Reader (Option Condition × Option Test) := do
  let condition ←
    if opcode.hasCondition then
      let k ← readCondition catalog
      pure (some k)
    else pure none
  if opcode.hasOperator then
    match (match condition with
      | some k => some k.predicate
      | none => enclosing) with
    | none => throw (.caseOutsideSwitch start)
    | some predicate =>
      let test ← readTest catalog predicate
      return (condition, some test)
  else return (condition, none)

/-- One command, from its opcode byte at `start`. -/
def readCommand (catalog : Catalog) (kind : ScriptKind) (enclosing : Option Predicate)
    (start : Nat) : Reader Command := do
  let code ← readByte
  match catalog.opcode? kind code with
  | none => throw (.unknownOpcode code start)
  | some opcode =>
    if opcode.argsFirst then
      let args ← readArguments opcode
      let (condition, test) ← readGuard catalog opcode enclosing start
      return { opcode, args, condition, test, offset := some start }
    else
      let (condition, test) ← readGuard catalog opcode enclosing start
      let args ← readArguments opcode
      return { opcode, args, condition, test, offset := some start }

/-! ### Blocks and behaviors -/

/-- An open switch: the furthest offset its labels and breaks lead to, and the predicate that lays
out the literals of its labels. -/
structure SwitchFrame where
  reach : Option Nat := none
  predicate : Predicate

def SwitchFrame.extend (f : SwitchFrame) (target : Nat) : SwitchFrame :=
  { f with reach := some (match f.reach with
    | none => target
    | some reach => max reach target) }

/-- What the parser has read, and what is still open: the ends of the conditional blocks and the
switches, innermost first, and whether a behavior starts at the next command that is not an END. -/
structure ParseState where
  commands : Array Command := #[]
  offsets : IndexMap Nat := {}
  behaviors : IndexMap Int := {}
  tracks : IndexMap Int := {}
  blocks : List Nat := []
  switches : List SwitchFrame := []
  nextBehavior : Nat := 0
  behaviorDue : Bool := false

namespace ParseState

/-- The state before the first byte. Only life scripts have behaviors. -/
def start (kind : ScriptKind) : ParseState := { behaviorDue := kind == .life }

def closeIfs (s : ParseState) (catalog : Catalog) (position : Nat) : ParseState :=
  let ended := (s.blocks.takeWhile (· == position)).length
  let still := s.blocks.dropWhile (· == position)
  let marker := Command.implicit (catalog.marker .endIf) []
  { s with commands := s.commands ++ Array.replicate ended marker, blocks := still }

def closeSwitches (s : ParseState) (catalog : Catalog) (position : Nat) : ParseState :=
  let ended := (s.switches.takeWhile (·.reach == some position)).length
  let still := s.switches.dropWhile (·.reach == some position)
  let marker := Command.implicit (catalog.marker .endSwitch) []
  { s with commands := s.commands ++ Array.replicate ended marker, switches := still }

/-- Whether the command under the cursor labels an arm of a switch or ends one. -/
def atCaseLabel (catalog : Catalog) (kind : ScriptKind) (c : Cursor) : Bool :=
  match c.peek?.bind (catalog.opcode? kind) with
  | some opcode => opcode.operation.isCaseLabel
  | none => false

/-- Close every block that ends here, conditionals before switches. -/
def closeBlocks (s : ParseState) (catalog : Catalog) (kind : ScriptKind) (c : Cursor) :
    ParseState :=
  let s := s.closeIfs catalog c.position
  if atCaseLabel catalog kind c then s else s.closeSwitches catalog c.position

/-- Note that the next command is the one at this offset. -/
def enter (s : ParseState) (position : Nat) : ParseState :=
  { s with offsets := s.offsets.insert position s.commands.size }

/-- Start a behavior, if one is due and the byte is not an END. -/
def startBehavior (s : ParseState) (catalog : Catalog) (code : UInt8) : ParseState :=
  if s.behaviorDue && code != 0 then
    { s with
      behaviors := s.behaviors.insert s.commands.size s.nextBehavior
      commands := s.commands.push
        (.implicit (catalog.marker .behaviour) [⟨.label, .number s.nextBehavior⟩])
      nextBehavior := s.nextBehavior + 1
      behaviorDue := false }
  else s

/-- An argument as a jump offset, reduced to 32 bits. -/
def jumpOffset (n : Int) : Nat := (n % 0x100000000).toNat

/-- Note what a command opens, moves or closes. `index` is the index noted for its
offset. -/
def track (s : ParseState) (command : Command) (index : Nat) : ParseState :=
  let target := command.firstNumber?.map jumpOffset
  if command.opcode.opensBlock then
    { s with blocks := target.toList ++ s.blocks }
  else
    match command.opcode.operation with
    | .elseThen =>
      match s.blocks, target with
      | _ :: rest, some t => { s with blocks := t :: rest }
      | _, _ => s
    | .switch =>
      match command.condition with
      | some k => { s with switches := { predicate := k.predicate } :: s.switches }
      | none => s
    | .caseArm | .orCaseArm | .breakOff =>
      match s.switches, target with
      | f :: rest, some t => { s with switches := f.extend t :: rest }
      | _, _ => s
    | .endSwitch => { s with switches := s.switches.tail }
    | .endBehaviour => { s with behaviorDue := true }
    | .track =>
      match command.firstNumber? with
      | some n => { s with tracks := s.tracks.insert index n }
      | none => s
    | _ => s

def enclosing (s : ParseState) : Option Predicate := s.switches.head?.map SwitchFrame.predicate

def add (s : ParseState) (command : Command) (index : Nat) : ParseState :=
  let s := s.track command index
  { s with commands := s.commands.push command }

/-- Read commands until the bytes end or a command fails. The bound counts commands; each
takes a byte at least, so the number of bytes is bound enough. -/
def run (catalog : Catalog) (kind : ScriptKind) :
    Nat → Cursor → ParseState → ParseState × Option (Nat × ParseError)
  | 0, _, s => (s, none)
  | fuel + 1, c, s =>
    if c.atEnd then (s, none)
    else
      let s := s.closeBlocks catalog kind c
      let index := s.commands.size
      let s := (s.enter c.position).startBehavior catalog (c.peek?.getD 0)
      match (readCommand catalog kind s.enclosing c.position).run c with
      | .error e => (s, some (c.position, e))
      | .ok (command, after) => run catalog kind fuel after (s.add command index)

/-- The script read so far; offsets without a command are dropped. -/
def script (s : ParseState) (id : ScriptId) (truncatedAt : Option Nat) : ParsedScript where
  id := id
  commands := s.commands
  offsets := s.offsets.filter fun _ index => index < s.commands.size
  behaviors := s.behaviors
  tracks := s.tracks
  truncatedAt := truncatedAt

end ParseState

/-! ### Whole scripts -/

def ParseError.diagnostic (e : ParseError) (scene : Nat) (id : ScriptId) (command offset : Nat) :
    Diagnostic :=
  .make .error e.code e.message ⟨scene, id, some command, some offset⟩

def parseScript (catalog : Catalog) (scene : Nat) (id : ScriptId) (bytes : List UInt8) :
    ParsedScript × List Diagnostic :=
  match ParseState.run catalog id.kind bytes.length (.start bytes) (.start id.kind) with
  | (s, none) => (s.script id none, [])
  | (s, some (offset, e)) =>
    (s.script id (some offset), [e.diagnostic scene id s.commands.size offset])

end SceneScript
