import SceneScript.Scene.State

/-! # Snapshots

A plain copy of every actor's state, with the fingerprint of the scripts it belongs to. -/

namespace SceneScript

/-- The states of a scene at one moment, with the fingerprint of the scripts they belong to. -/
structure Snapshot where
  scene : Nat
  frame : UInt64
  fingerprint : String
  actors : List ActorState
  deriving DecidableEq, Repr

namespace Snapshot

def toJson (s : Snapshot) : Json :=
  .obj [
    ("scene", .nat s.scene), ("frame", .nat s.frame.toNat), ("fingerprint", .str s.fingerprint),
    ("actors", .list ActorState.toJson s.actors)]

def ofJson? (j : Json) : Option Snapshot := do
  let fields ← j.record? ["scene", "frame", "fingerprint", "actors"]
  let scene ← Json.required fields "scene" Json.size?
  let frame ← Json.required fields "frame" Json.size?
  let fingerprint ← Json.required fields "fingerprint" Json.str?
  let actors ← Json.required fields "actors" (Json.list? ActorState.ofJson?)
  return ⟨scene, .ofNat frame, fingerprint, actors⟩

end Snapshot

end SceneScript
