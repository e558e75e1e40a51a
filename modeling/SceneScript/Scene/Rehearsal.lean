import SceneScript.Scene.Host

/-! # Rehearsal host

A host for playing scenes without a game. Two tables say what it answers: `values` gives
the value of a predicate, by its name with the parameter (`VAR_GAME(3)`) or by its name
alone, and `handlers` gives the action for a command, by its name or under `*`. An entry
that is a list yields its elements one use after the other, and the last one from then on.
The host notes everything it is asked.

A predicate without an entry takes the default value, if there is one; a text in place of
a value is a failure with that text. A command without an entry just advances. -/

namespace SceneScript

/-! ### Actions -/

/-- A change of one script's state: end the script, or replace fields of the state's JSON form. -/
inductive Change where
  | terminate
  | overwrite (fields : List (String × Json))

/-- Apply a change; a form that is no state any more is refused. -/
def Change.apply? (c : Change) (s : ScriptState) : Option ScriptState :=
  match c with
  | .terminate => some s.terminate
  | .overwrite fields =>
    match s.toJson with
    | .obj old =>
      ScriptState.ofJson? (.obj (fields.foldl (fun acc (n, v) => Json.setField n v acc) old))
    | _ => none

/-- What the host does with a command. Besides flows and failures, it can note the number in an
operand or set a game variable, suspend and advance in turns, advance every `n`-th time or when a
time has passed, and change a script of the calling actor. -/
inductive Action where
  | flow (f : Flow)
  | fail (reason : String)
  | unsupported
  | number (index : Nat)
  | setVariable
  | toggle
  | count (n : Int)
  | wait (seconds : Binary64)
  | poke (script : ScriptKind) (change : Change) (next : Option Flow)

namespace Action

def seconds? : Json → Option Binary64
  | .int n => some (.ofInt n)
  | .float x => some x
  | _ => none

def change? : Json → Option Change
  | .str "terminate" => some .terminate
  | .obj fields => some (.overwrite fields)
  | _ => none

/-- An action read from JSON: a flow, or an object that names what to do. -/
def ofJson? (j : Json) : Option Action :=
  match Flow.ofJson? j with
  | some f => some (.flow f)
  | none => do
    let field (name : String) : Json := (j.field? name).getD .null
    match field "do" with
    | .str "fail" => (field "text").str?.map .fail
    | .str "unsupported" => some .unsupported
    | .str "number" => (Json.opt? Json.size? (field "index")).map fun i => .number (i.getD 0)
    | .str "set_var" => some .setVariable
    | .str "toggle" => some .toggle
    | .str "count" => (field "n").int64?.map .count
    | .str "wait" => (seconds? (field "seconds")).map .wait
    | .str "poke" =>
      let kind ← ScriptKind.ofJson? (field "script")
      let change ← change? (field "set")
      return .poke kind change (Flow.ofJson? (field "then"))
    | _ => none

end Action

/-! ### Notes -/

structure EvalNote where
  name : String
  script : ScriptId
  value : Except HostError Int

structure CallNote where
  call : HostCall
  number : Option Int := none
  count : Option Int := none
  flow : Except HostError Flow

inductive Note where
  | eval (n : EvalNote)
  | call (n : CallNote)

namespace Note

def resultJson {α : Type} (f : α → Json) : Except HostError α → Json
  | .ok a => f a
  | .error e => .obj [("error", .str e.message)]

def fieldIf {α : Type} (name : String) (f : α → Json) (a : Option α) : List (String × Json) :=
  a.toList.map fun a => (name, f a)

def toJson : Note → Json
  | .eval n =>
    .obj [("eval", .str n.name), ("script", .str n.script.display),
      ("value", resultJson .int n.value)]
  | .call n =>
    .obj <|
      [("call", .str n.call.opcode.name), ("script", .str n.call.script.display),
        ("at", .nat n.call.offset),
        ("operands", .list (fun o : Operand => .str o.display) n.call.operands)] ++
      fieldIf "condition" .int n.call.condition ++ fieldIf "passed" .bool n.call.passed ++
      fieldIf "call_state" (fun _ => .bool true) n.call.callState ++
      fieldIf "number" .int n.number ++ fieldIf "count" .int n.count ++
      [("flow", resultJson Flow.toJson n.flow)]

end Note

/-! ### The host -/

/-- An entry of a table and how often it has been used. -/
structure Entry where
  content : Json
  uses : Nat := 0

abbrev Entries := List (String × Entry)

namespace Entry

/-- What the entry yields now: itself, or the next element of its list. -/
def yield? (e : Entry) : Option Json :=
  match e.content with
  | .arr items => items[min e.uses (items.length - 1)]?
  | j => some j

end Entry

namespace Entries

def set (name : String) (e : Entry) : Entries → Entries
  | [] => [(name, e)]
  | (n, old) :: rest => if n = name then (n, e) :: rest else (n, old) :: set name e rest

def setAll (entries : Entries) (contents : List (String × Json)) : Entries :=
  contents.foldl (fun acc (n, j) => set n { content := j } acc) entries

/-- Change the content of an entry without touching its uses. -/
def overwrite (entries : Entries) (name : String) (content : Json) : Entries :=
  set name ⟨content, ((entries.lookup name).map Entry.uses).getD 0⟩ entries

/-- Use an entry: what it yields, and the table with the use counted. -/
def use (entries : Entries) (name : String) (e : Entry) : Option Json × Entries :=
  (e.yield?, set name { e with uses := e.uses + 1 } entries)

def find? (entries : Entries) : List String → Option (String × Entry)
  | [] => none
  | name :: rest =>
    match entries.lookup name with
    | some e => some (name, e)
    | none => find? entries rest

end Entries

/-- The tables and the notes of a rehearsal host. -/
structure Rehearsal where
  values : Entries := []
  handlers : Entries := []
  fallback : Option Int := none
  notes : Array Note := #[]

namespace Rehearsal

def valueOf (name : String) : Option Json → Except HostError Int
  | some (.str reason) => .error (.failed reason)
  | some j =>
    match j.int64? with
    | some n => .ok n
    | none => .error (.unsupported name)
  | none => .error (.unsupported name)

def fullName (q : HostQuery) : String :=
  match q.param with
  | none => q.predicate.name
  | some p => q.predicate.name ++ "(" ++ p.display ++ ")"

def evaluate (q : HostQuery) (r : Rehearsal) : Except HostError Int × Rehearsal :=
  let name := q.predicate.name
  let full := fullName q
  let (answer, values) :=
    match r.values.find? [full, name] with
    | some (key, e) => r.values.use key e
    | none => (r.fallback.map .int, r.values)
  let value := valueOf name answer
  (value, { r with values, notes := r.notes.push (.eval ⟨full, q.script, value⟩) })

/-- What an action leaves behind. -/
structure Effect where
  flow : Except HostError Flow
  actor : ActorState
  callState : Option CallState
  number : Option Int := none
  count : Option Int := none
  setting : Option (String × Int) := none

def Effect.plain (c : HostCall) (flow : Except HostError Flow) : Effect :=
  { flow, actor := c.actor, callState := c.callState }

def badHandler : HostError := .failed "bad handler"

/-- An effect on the scratch record, which has to be there. -/
def withCallState (c : HostCall) (f : CallState → Effect) : Effect :=
  match c.callState with
  | some s => f s
  | none => .plain c (.error (.failed "no call state"))

def perform (c : HostCall) : Action → Effect
  | .flow f => .plain c (.ok f)
  | .fail reason => .plain c (.error (.failed reason))
  | .unsupported => .plain c (.error (.unsupported c.opcode.name))
  | .number index =>
    match c.number index with
    | .ok n => { Effect.plain c (.ok .advance) with number := some n }
    | .error e => .plain c (.error e)
  | .setVariable =>
    match c.number 0, c.number 1 with
    | .ok n, .ok v =>
      { Effect.plain c (.ok .advance) with setting := some ("VAR_GAME(" ++ toString n ++ ")", v) }
    | .error e, _ => .plain c (.error e)
    | _, .error e => .plain c (.error e)
  | .toggle => withCallState c fun s =>
    let used := !s.used
    { Effect.plain c (.ok (if used then .suspend else .advance)) with
      callState := some { s with used } }
  | .count n => withCallState c fun s =>
    let s := s.addInteger 1
    let runs := s.integer
    if runs < n then
      { Effect.plain c (.ok .suspend) with callState := some s, count := some runs }
    else
      { Effect.plain c (.ok .advance) with callState := some (s.setInteger 0), count := some runs }
  | .wait seconds => withCallState c fun s =>
    let elapsed := c.time.elapsed
    let deadline := s.deadline.getD (elapsed.add seconds)
    if elapsed.lt deadline then
      { Effect.plain c (.ok .suspend) with callState := some { s with deadline := some deadline } }
    else
      { Effect.plain c (.ok .advance) with callState := some { s with deadline := none } }
  | .poke kind change next =>
    match change.apply? (c.actor.get kind) with
    | none => .plain c (.error badHandler)
    | some s =>
      { Effect.plain c (match next with
          | some f => .ok f
          | none => .error badHandler) with
        actor := c.actor.modify kind fun _ => s }

def execute (c : HostCall) (r : Rehearsal) : HostReply × Rehearsal :=
  let (answer, handlers) :=
    match r.handlers.find? [c.opcode.name, "*"] with
    | some (key, e) => r.handlers.use key e
    | none => (none, r.handlers)
  let effect : Effect :=
    match answer with
    | none => .plain c (.ok .advance)
    | some j =>
      match Action.ofJson? j with
      | some action => perform c action
      | none => .plain c (.error badHandler)
  let values :=
    match effect.setting with
    | some (name, v) => r.values.overwrite name (.int v)
    | none => r.values
  let note : CallNote :=
    { call := c, number := effect.number, count := effect.count, flow := effect.flow }
  (⟨effect.flow, effect.actor, effect.callState⟩,
    { r with values, handlers, notes := r.notes.push (.call note) })

def host : Host Rehearsal := ⟨execute, evaluate⟩

end Rehearsal

end SceneScript
