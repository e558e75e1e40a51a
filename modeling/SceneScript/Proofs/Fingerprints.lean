import SceneScript.Proofs.Frames

/-! # Fingerprints identify scripts

A fingerprint is the digest, in hexadecimal, of a stream in which every script follows its own
length. The stream can be taken apart again from the front, whatever the bytes of the scripts are,
so no bytes can move from one script to the next without changing it.

* `Fingerprint.scriptStream_append_inj`, `Fingerprint.actorStream_append_inj`: a script, and an
  actor, can be told apart from what follows it in the stream.
* `Fingerprint.stream_inj`: by induction on the actors, lists with the same stream are the same.
* `Text.bytesOfHex?_hexOfBytes`: a digest can be read from its hexadecimal form.
* `Scene.fingerprint_identifies`: scenes with the same fingerprint have the same scripts unless
  their streams collide, and a snapshot is accepted by no others. -/

namespace SceneScript

/-! ### Hexadecimal text -/

namespace Text

theorem hexValue?_hexDigit {n : Nat} (h : n < 16) : hexValue? (hexDigit n) = some n := by
  have hall : ∀ d : Fin 16, hexValue? (hexDigit d) = some d.val := by decide
  exact hall ⟨n, h⟩

theorem bytesOfHexDigits?_hexByte (b : UInt8) (rest : List Char) :
    bytesOfHexDigits? (hexByte b ++ rest) = (bytesOfHexDigits? rest).map (b :: ·) := by
  have hb := b.toNat_lt
  have hhigh : hexValue? (hexDigit (b.toNat / 16)) = some (b.toNat / 16) :=
    hexValue?_hexDigit (by omega)
  have hlow : hexValue? (hexDigit (b.toNat % 16)) = some (b.toNat % 16) :=
    hexValue?_hexDigit (by omega)
  have hjoin : UInt8.ofNat (16 * (b.toNat / 16) + b.toNat % 16) = b := by
    rw [Nat.div_add_mod, UInt8.ofNat_toNat]
  simp only [hexByte, List.cons_append, List.nil_append, bytesOfHexDigits?, hhigh, hlow]
  cases bytesOfHexDigits? rest with
  | none => rfl
  | some bytes => exact congrArg (fun c => some (c :: bytes)) hjoin

/-- Bytes are read back from their hexadecimal form. -/
theorem bytesOfHex?_hexOfBytes (bytes : List UInt8) :
    bytesOfHex? (hexOfBytes bytes) = some bytes := by
  rw [bytesOfHex?, hexOfBytes, String.toList_ofList]
  induction bytes with
  | nil => rfl
  | cons b bytes ih => rw [List.flatMap_cons, bytesOfHexDigits?_hexByte, ih, Option.map_some]

theorem hexOfBytes_injective : Function.Injective hexOfBytes := by
  intro a b h
  have ha := bytesOfHex?_hexOfBytes a
  rw [h, bytesOfHex?_hexOfBytes] at ha
  exact (Option.some.inj ha).symm

end Text

/-! ### Digests -/

namespace Sha256

/-- Two messages that the digest does not tell apart. -/
def Collide (x y : List UInt8) : Prop := x ≠ y ∧ digest x = digest y

theorem length_digest (message : List UInt8) : (digest message).length = 32 := rfl

end Sha256

/-! ### Streams -/

namespace Fingerprint

/-- The number of actors and the lengths of their scripts fit in four bytes. -/
structure InRange (actors : List ActorSource) : Prop where
  count : actors.length < byteRange 4
  life : ∀ a ∈ actors, a.life.length < byteRange 4
  moves : ∀ a ∈ actors, a.moves.length < byteRange 4

theorem InRange.tail {a : ActorSource} {actors : List ActorSource} (h : InRange (a :: actors)) :
    InRange actors where
  count := Nat.lt_of_succ_lt h.count
  life b hb := h.life b (List.mem_cons_of_mem a hb)
  moves b hb := h.moves b (List.mem_cons_of_mem a hb)

theorem littleEndian_inj {width m n : Nat} (hm : m < byteRange width) (hn : n < byteRange width)
    (h : littleEndian width m = littleEndian width n) : m = n := by
  have hvalue := congrArg littleEndianValue h
  rwa [littleEndianValue_littleEndian, littleEndianValue_littleEndian, Nat.mod_eq_of_lt hm,
    Nat.mod_eq_of_lt hn] at hvalue

/-- A number of fixed width can be told apart from what follows it. -/
theorem littleEndian_append_inj {width m n : Nat} (hm : m < byteRange width)
    (hn : n < byteRange width) {x y : List UInt8}
    (h : littleEndian width m ++ x = littleEndian width n ++ y) : m = n ∧ x = y := by
  have hwidth : (littleEndian width m).length = (littleEndian width n).length := by
    rw [length_littleEndian, length_littleEndian]
  obtain ⟨hnumber, hrest⟩ := List.append_inj h hwidth
  exact ⟨littleEndian_inj hm hn hnumber, hrest⟩

/-- A script can be told apart from what follows it: its length comes first. -/
theorem scriptStream_append_inj {a b x y : List UInt8} (ha : a.length < byteRange 4)
    (hb : b.length < byteRange 4) (h : scriptStream a ++ x = scriptStream b ++ y) :
    a = b ∧ x = y := by
  rw [scriptStream, scriptStream, List.append_assoc, List.append_assoc] at h
  obtain ⟨hlength, hrest⟩ := littleEndian_append_inj ha hb h
  exact List.append_inj hrest hlength

/-- The scripts of an actor can be told apart from what follows them, and from each other. -/
theorem actorStream_append_inj {a b : ActorSource} {x y : List UInt8}
    (ha : a.life.length < byteRange 4 ∧ a.moves.length < byteRange 4)
    (hb : b.life.length < byteRange 4 ∧ b.moves.length < byteRange 4)
    (h : actorStream a ++ x = actorStream b ++ y) : a = b ∧ x = y := by
  obtain ⟨life, moves⟩ := a
  obtain ⟨life', moves'⟩ := b
  rw [actorStream, actorStream, List.append_assoc, List.append_assoc] at h
  obtain ⟨rfl, hmoves⟩ := scriptStream_append_inj ha.1 hb.1 h
  obtain ⟨rfl, hrest⟩ := scriptStream_append_inj ha.2 hb.2 hmoves
  exact ⟨rfl, hrest⟩

theorem flatMap_actorStream_inj {as bs : List ActorSource} (ha : InRange as) (hb : InRange bs)
    (hcount : as.length = bs.length) (h : as.flatMap actorStream = bs.flatMap actorStream) :
    as = bs := by
  induction as generalizing bs with
  | nil => exact (List.length_eq_zero_iff.mp hcount.symm).symm
  | cons a as ih =>
      cases bs with
      | nil => cases hcount
      | cons b bs =>
          rw [List.flatMap_cons, List.flatMap_cons] at h
          obtain ⟨rfl, hrest⟩ := actorStream_append_inj
            ⟨ha.life a List.mem_cons_self, ha.moves a List.mem_cons_self⟩
            ⟨hb.life b List.mem_cons_self, hb.moves b List.mem_cons_self⟩ h
          rw [ih ha.tail hb.tail (Nat.succ.inj hcount) hrest]

/-- **Lists of actors with the same stream are the same.** -/
theorem stream_inj {as bs : List ActorSource} (ha : InRange as) (hb : InRange bs)
    (h : stream as = stream bs) : as = bs := by
  obtain ⟨hcount, hactors⟩ := littleEndian_append_inj ha.count hb.count h
  exact flatMap_actorStream_inj ha hb hcount hactors

/-- Lists of actors with the same fingerprint are the same, unless their streams collide. -/
theorem ofActors_inj {as bs : List ActorSource} (ha : InRange as) (hb : InRange bs)
    (hcollide : ¬ Sha256.Collide (stream as) (stream bs)) (h : ofActors as = ofActors bs) :
    as = bs := by
  have hdigest : Sha256.digest (stream as) = Sha256.digest (stream bs) :=
    Text.hexOfBytes_injective h
  apply stream_inj ha hb
  by_contra hne
  exact hcollide ⟨hne, hdigest⟩

end Fingerprint

/-! ### Scenes -/

namespace Scene

variable {σ τ : Type}

/-- The fingerprint of a scene in play is that of the scripts it was compiled from. -/
theorem fingerprint_play (catalog : Catalog) (source : SceneSource) (config : Config) (g : σ)
    (past : List (Request σ)) :
    ((ofCompiled (compileScene catalog source) config).play g past).2.1.fingerprint =
      Fingerprint.ofActors source.actors := by
  have hblank := blank_play (ofCompiled (compileScene catalog source) config) g past
  exact congrArg Scene.fingerprint hblank

/-- **A fingerprint identifies the scripts of a scene.** Take two scenes with fewer than 2³² actors
and scripts of fewer than 2³² bytes. The streams that are digested for them are the same only if
their scripts are, one by one. So are their fingerprints, unless the two streams are a collision of
the digest: digests of 32 bytes differ in hexadecimal if they differ. And so, whatever the two scenes
go through, a snapshot taken of one is accepted by the other exactly if they have the same scripts. -/
theorem fingerprint_identifies (catalog catalog' : Catalog) {a b : SceneSource}
    (ha : Fingerprint.InRange a.actors) (hb : Fingerprint.InRange b.actors) :
    (Fingerprint.stream a.actors = Fingerprint.stream b.actors ↔ a.actors = b.actors) ∧
    ((∀ message, (Sha256.digest message).length = 32) ∧ Function.Injective Text.hexOfBytes) ∧
    (¬ Sha256.Collide (Fingerprint.stream a.actors) (Fingerprint.stream b.actors) →
      ((compileScene catalog a).fingerprint = (compileScene catalog' b).fingerprint ↔
        a.actors = b.actors) ∧
      ∀ (config config' : Config) (g : σ) (past : List (Request σ)) (h : τ)
        (other : List (Request τ)),
        let s := ((ofCompiled (compileScene catalog a) config).play g past).2.1
        let t := ((ofCompiled (compileScene catalog' b) config').play h other).2.1
        (∃ u, t.restore s.snapshot = .ok u) ↔ a.actors = b.actors) := by
  refine ⟨⟨Fingerprint.stream_inj ha hb, congrArg _⟩,
    ⟨Sha256.length_digest, Text.hexOfBytes_injective⟩, ?_⟩
  intro hcollide
  have hsame := Fingerprint.ofActors_inj ha hb hcollide
  refine ⟨⟨hsame, congrArg Fingerprint.ofActors⟩, ?_⟩
  intro config config' g past h other s t
  have hsize : s.snapshot.actors.length = a.actors.length :=
    Array.length_toList.trans (reached catalog a config g past).2.1
  have hsize' : t.states.size = b.actors.length := (reached catalog' b config' h other).2.1
  have hprint : s.snapshot.fingerprint = Fingerprint.ofActors a.actors :=
    fingerprint_play catalog a config g past
  have hprint' : t.fingerprint = Fingerprint.ofActors b.actors :=
    fingerprint_play catalog' b config' h other
  rw [exists_restore_iff, hsize, hsize', hprint, hprint']
  constructor
  · rintro ⟨hequal, -⟩
    exact hsame hequal
  · intro hactors
    rw [hactors]
    exact ⟨rfl, rfl⟩

/-- Two actors with the same bytes, one script put behind the other: where the first ends is part of
the stream, so the fingerprints are the same only if the digest has a collision here. A snapshot of
either is accepted by another scene of the same scripts, which has gone through something else. -/
theorem fingerprint_identifies_boundary :
    let a : SceneSource := { actors := [{ life := [1, 2], moves := [3] }] }
    let b : SceneSource := { actors := [{ life := [1], moves := [2, 3] }] }
    let s := ((ofCompiled (compileScene .standard a) {}).play () [.frame .quiet {}]).2.1
    let t := ((ofCompiled (compileScene .standard a) {}).play () [.kill 0]).2.1
    Fingerprint.stream a.actors ≠ Fingerprint.stream b.actors ∧
      ((compileScene .standard a).fingerprint = (compileScene .standard b).fingerprint →
        Sha256.Collide (Fingerprint.stream a.actors) (Fingerprint.stream b.actors)) ∧
      ∃ u, t.restore s.snapshot = .ok u := by
  intro a b s t
  have ha : Fingerprint.InRange a.actors := ⟨by decide, by decide, by decide⟩
  have hb : Fingerprint.InRange b.actors := ⟨by decide, by decide, by decide⟩
  have hne : a.actors ≠ b.actors := by decide
  obtain ⟨hstream, -, hscenes⟩ :=
    @fingerprint_identifies Unit Unit .standard .standard a b ha hb
  obtain ⟨-, -, hself⟩ := @fingerprint_identifies Unit Unit .standard .standard a a ha ha
  refine ⟨fun h => hne (hstream.mp h), ?_, ?_⟩
  · intro hprint
    by_contra hcollide
    exact hne ((hscenes hcollide).1.mp hprint)
  · have hsame : ¬ Sha256.Collide (Fingerprint.stream a.actors) (Fingerprint.stream a.actors) :=
      fun h => h.1 rfl
    exact ((hself hsame).2 {} {} () [.frame .quiet {}] () [.kill 0]).mpr rfl

end Scene

end SceneScript
