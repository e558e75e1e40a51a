import SceneScript.Json.Record

/-! # Scripts and places in them

Every actor of a scene owns two scripts: its life script decides, its move script runs
named tracks. A `ScriptId` names one of them; a `Location` adds the scene and, where they
are known, the command and the byte offset. -/

namespace SceneScript

/-- Which of an actor's two scripts. -/
inductive ScriptKind where
  | life
  | move
  deriving DecidableEq, Repr, Inhabited

namespace ScriptKind

/-- Both kinds, in the order a frame runs them. -/
def all : List ScriptKind := [.life, .move]

def name : ScriptKind → String
  | .life => "life"
  | .move => "move"

def ofName? (s : String) : Option ScriptKind := all.find? fun k => k.name == s

def ofJson? (j : Json) : Option ScriptKind := j.bareChoice?.bind ofName?

def sibling : ScriptKind → ScriptKind
  | .life => .move
  | .move => .life

@[simp] theorem sibling_sibling (k : ScriptKind) : k.sibling.sibling = k := by
  cases k <;> rfl

end ScriptKind

/-- One script of one actor. -/
structure ScriptId where
  actor : Nat
  kind : ScriptKind
  deriving DecidableEq, Repr, Inhabited

namespace ScriptId

def life (actor : Nat) : ScriptId := ⟨actor, .life⟩

def move (actor : Nat) : ScriptId := ⟨actor, .move⟩

def sibling (id : ScriptId) : ScriptId := ⟨id.actor, id.kind.sibling⟩

/-- Actor and kind, as in `3:life`. -/
def display (id : ScriptId) : String := toString id.actor ++ ":" ++ id.kind.name

def toJson (id : ScriptId) : Json :=
  .obj [("actor", .nat id.actor), ("kind", .str id.kind.name)]

@[simp] theorem sibling_sibling (id : ScriptId) : id.sibling.sibling = id := by
  simp [ScriptId.sibling]

end ScriptId

def displayActor (actor : Nat) : String := "actor(" ++ toString actor ++ ")"

def displayPoint (point : Nat) : String := "point(" ++ toString point ++ ")"

/-- A place in a scene's scripts. -/
structure Location where
  scene : Nat
  script : ScriptId
  command : Option Nat := none
  offset : Option Nat := none
  deriving DecidableEq, Repr, Inhabited

namespace Location

def display (l : Location) : String :=
  toString l.scene ++ ":" ++ l.script.display ++
    (match l.command with
    | some i => ":" ++ toString i
    | none => "") ++
    (match l.offset with
    | some o => " offset=" ++ toString o
    | none => "")

/-- The JSON form; an unknown command or offset has no field. -/
def toJson (l : Location) : Json :=
  .obj <|
    [("scene", .nat l.scene), ("actor", .nat l.script.actor),
      ("script", .str l.script.kind.name)] ++
    l.command.toList.map (fun i => ("command", .nat i)) ++
    l.offset.toList.map (fun o => ("offset", .nat o))

def ofJson? (j : Json) : Option Location := do
  let fields ← j.record? ["scene", "actor", "script", "command", "offset"]
  let scene ← Json.required fields "scene" Json.size?
  let actor ← Json.required fields "actor" Json.size?
  let kind ← Json.required fields "script" ScriptKind.ofJson?
  let command ← Json.optional fields "command" Json.size?
  let offset ← Json.optional fields "offset" Json.word32?
  return ⟨scene, ⟨actor, kind⟩, command, offset⟩

end Location

end SceneScript
