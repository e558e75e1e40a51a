import Std.Data.TreeMap
import SceneScript.Script.Command

/-! # Parsed scripts

The commands of one script in order, with three maps beside them: from the byte offset of
a command to its index, from the index where a behavior starts to the behavior's number,
and from the index of a track to its declared number. -/

namespace SceneScript

/-- A map whose keys are offsets or indices, in ascending order. -/
abbrev IndexMap (β : Type) := Std.TreeMap Nat β

namespace IndexMap

/-- The least key with a value. -/
def keyOf? (m : IndexMap Int) (n : Int) : Option Nat :=
  (m.toList.find? fun e => e.2 == n).map Prod.fst

end IndexMap

/-- One script after parsing, with the maps from the offset of a command to its index, from the
index of a behavior's entry to its number and from that of a track to its declared number, and the
offset where reading stopped on a failure. -/
structure ParsedScript where
  id : ScriptId
  commands : Array Command := #[]
  offsets : IndexMap Nat := {}
  behaviors : IndexMap Int := {}
  tracks : IndexMap Int := {}
  truncatedAt : Option Nat := none

namespace ParsedScript

def indexOf? (s : ParsedScript) (offset : Nat) : Option Nat := s.offsets[offset]?

def trackStart? (s : ParsedScript) (track : Int) : Option Nat := s.tracks.keyOf? track

def behaviorStart? (s : ParsedScript) (behavior : Int) : Option Nat := s.behaviors.keyOf? behavior

def lineNumber (i : Nat) : String :=
  let digits := toString i
  String.ofList (List.replicate (4 - digits.length) ' ') ++ digits

def lines (s : ParsedScript) : List String :=
  s.commands.toList.zipIdx.map fun (c, i) => lineNumber i ++ " " ++ c.display

/-- The numbered listing, one command per line. -/
def listing (s : ParsedScript) : String := String.join (s.lines.map (· ++ "\n"))

end ParsedScript

structure ParsedActor where
  life : ParsedScript
  moves : ParsedScript

def ParsedActor.script (a : ParsedActor) : ScriptKind → ParsedScript
  | .life => a.life
  | .move => a.moves

end SceneScript
