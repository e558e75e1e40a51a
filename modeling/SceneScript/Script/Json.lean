import SceneScript.Catalog.Json
import SceneScript.Program.Compile

/-! # JSON forms of scripts

Values and operands are written as a kind and a value. Maps are objects whose names are
the decimal keys. -/

namespace SceneScript

/-- A tagged value. -/
def taggedJson (kind : String) (value : Json) : Json := .obj [("kind", .str kind), ("value", value)]

def Value.toJson : Value → Json
  | .number n => taggedJson "number" (.int n)
  | .text s => taggedJson "text" (.str s)
  | .target t => taggedJson "target" (.nat t)
  | .unresolved n => taggedJson "unresolved" (.int n)

def Operand.toJson : Operand → Json
  | .number n => taggedJson "number" (.int n)
  | .text s => taggedJson "text" (.str s)
  | .actor a => taggedJson "actor" (.nat a)
  | .point p => taggedJson "point" (.nat p)
  | .target t => taggedJson "target" (.nat t)
  | .unresolved n => taggedJson "unresolved" (.int n)

def Argument.toJson (a : Argument) : Json :=
  .obj [("spec", a.slot.toJson), ("value", a.value.toJson)]

def Condition.toJson (k : Condition) : Json :=
  .obj [("predicate", k.predicate.toJson), ("param", .opt Argument.toJson k.param)]

def Test.toJson (t : Test) : Json :=
  .obj [("comparator", t.operator.toJson), ("operand", t.operand.toJson)]

def Command.toJson (c : Command) : Json :=
  .obj [
    ("opcode", c.opcode.toJson), ("args", .list Argument.toJson c.args),
    ("condition", .opt Condition.toJson c.condition), ("operator", .opt Test.toJson c.test),
    ("offset", .opt .nat c.offset)]

def IndexMap.toJson {β : Type} (f : β → Json) (m : IndexMap β) : Json :=
  .obj (m.toList.map fun (k, v) => (toString k, f v))

def ParsedScript.toJson (s : ParsedScript) : Json :=
  .obj <|
    [("id", s.id.toJson), ("commands", .list Command.toJson s.commands.toList),
      ("offset_map", s.offsets.toJson .nat), ("behavior_map", s.behaviors.toJson .int),
      ("track_map", s.tracks.toJson .int)] ++
    s.truncatedAt.toList.map fun o => ("truncated_at", .nat o)

def LinkedScript.toJson (s : LinkedScript) : Json :=
  .obj [
    ("id", s.id.toJson), ("commands", .list Command.toJson s.commands.toList),
    ("behavior_map", s.behaviors.toJson .int), ("track_map", s.tracks.toJson .int)]

def LinkedActor.toJson (a : LinkedActor) : Json :=
  .obj [("life", a.life.toJson), ("moves", a.moves.toJson)]

def Layout.toJson (l : Layout) : Json :=
  .obj [("actor_count", .nat l.actorCount), ("point_count", .nat l.pointCount)]

end SceneScript
