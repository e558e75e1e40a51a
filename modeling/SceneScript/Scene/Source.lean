import SceneScript.Digest.Sha256
import SceneScript.Text.Hex
import SceneScript.Wire.Basic

/-! # Scene sources

What a scene is compiled from: the bytes of every actor's two scripts, in scene order, and
the number of points. The fingerprint of the actors identifies their scripts: it is the
digest of a stream that spells out the number of actors and, for each script, its length
and its bytes, so different lists of scripts have different streams. -/

namespace SceneScript

structure ActorSource where
  life : List UInt8 := []
  moves : List UInt8 := []
  deriving DecidableEq, Repr, Inhabited

/-- Everything a scene is compiled from. -/
structure SceneSource where
  index : Nat := 0
  actors : List ActorSource := []
  pointCount : Nat := 0
  deriving DecidableEq, Repr, Inhabited

namespace Fingerprint

/-- A script in the stream: its length in four bytes, then its bytes. -/
def scriptStream (bytes : List UInt8) : List UInt8 := littleEndian 4 bytes.length ++ bytes

def actorStream (a : ActorSource) : List UInt8 := scriptStream a.life ++ scriptStream a.moves

def stream (actors : List ActorSource) : List UInt8 :=
  littleEndian 4 actors.length ++ actors.flatMap actorStream

/-- The fingerprint of a list of actors: the digest of its stream in hexadecimal. -/
def ofActors (actors : List ActorSource) : String :=
  Text.hexOfBytes (Sha256.digest (stream actors))

end Fingerprint

end SceneScript
