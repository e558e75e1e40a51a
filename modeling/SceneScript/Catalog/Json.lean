import SceneScript.Catalog.Basic

/-! # JSON forms of catalog entries -/

namespace SceneScript

def Slot.toJson (s : Slot) : Json :=
  .obj [("ty", .str s.wire.name), ("role", .str s.role.name), ("hidden", .bool s.hidden)]

def Opcode.toJson (d : Opcode) : Json :=
  .obj [
    ("code", .nat d.code.toNat), ("name", .str d.name), ("kind", .str d.operation.name),
    ("args", .list Slot.toJson d.slots), ("has_condition", .bool d.hasCondition),
    ("has_operator", .bool d.hasOperator), ("args_first", .bool d.argsFirst),
    ("needs_call_state", .bool d.needsCallState), ("precondition", .bool d.precondition),
    ("suppressed_in_headless_mode", .bool d.skippedHeadless),
    ("layout_uncertain", .bool d.layoutUncertain)]

def Predicate.toJson (p : Predicate) : Json :=
  .obj [
    ("code", .nat p.code.toNat), ("name", .str p.name), ("kind", .str p.source.name),
    ("param", .opt Slot.toJson p.param), ("operand", p.operand.toJson)]

def Operator.toJson (o : Operator) : Json :=
  .obj [("code", .nat o.code.toNat), ("name", .str o.name), ("comparator", .str o.comparison.name)]

end SceneScript
