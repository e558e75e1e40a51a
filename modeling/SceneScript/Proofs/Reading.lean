import Mathlib.Data.List.TakeWhile
import Mathlib.Tactic.Common
import SceneScript.Script.Bytes
import SceneScript.Script.Parse
import SceneScript.Wire.Writer

/-! # Reading a command undoes writing it

A command is read from exactly the bytes it is written in, and every command that conforms to
the catalog is read back from its bytes:

* `Argument.Fits` says that a value is one its slot's wire type can hold: a number in the range
  of the type, a text of characters with codes from 1 to 255;
* `Command.Conforms` says that a command is laid out as a catalog prescribes: its opcode,
  predicate and operator are the table's entries at their own codes, its arguments follow the
  signature (and the direction mode), its condition and comparison are there exactly when the
  opcode has them;
* `Cursor.Passes c written after` says that `after` stands behind `written`, which starts at `c`.

`readCommand_eq_ok_iff` joins the three: reading succeeds with a command exactly when the command
conforms, carries the offset it was read at, and its bytes lie between the two cursors. -/

namespace SceneScript

/-! ### Numbers of a wire type -/

namespace WireType

/-- The numbers a wire type holds; a text holds none. -/
def Holds (ty : WireType) (n : Int) : Prop :=
  match ty.size? with
  | none => False
  | some width =>
    if ty.signed then -(byteRange width : Int) ≤ 2 * n ∧ 2 * n < byteRange width
    else 0 ≤ n ∧ n < byteRange width

/-- Only texts have no fixed width. -/
theorem eq_text_of_size? {ty : WireType} (h : ty.size? = none) : ty = .text := by
  cases ty <;> simp_all [size?]

theorem byteRange_even_of_size {ty : WireType} {width : Nat} (h : ty.size? = some width) :
    byteRange width % 2 = 0 ∧ 0 < byteRange width := by
  cases ty <;> simp only [size?, Option.some.injEq, reduceCtorEq] at h <;> subst h <;> decide

theorem holds_iff_reduce {ty : WireType} {width : Nat} (h : ty.size? = some width) (n : Int) :
    ty.Holds n ↔ ty.reduce width n = n := by
  obtain ⟨heven, hpos⟩ := byteRange_even_of_size h
  simp only [Holds, h, reduce]
  by_cases hs : ty.signed = true
  · simp only [hs, if_true]
    constructor
    · rintro ⟨h1, h2⟩
      exact Int.bmod_eq_of_le (by omega) (by omega)
    · intro he
      have h1 := Int.le_bmod (x := n) hpos
      have h2 := Int.bmod_lt (x := n) hpos
      omega
  · simp only [hs]
    constructor
    · rintro ⟨h1, h2⟩
      exact Int.emod_eq_of_lt h1 h2
    · intro he
      have h1 := Int.emod_nonneg n (b := byteRange width) (by omega)
      have h2 := Int.emod_lt_of_pos n (b := byteRange width) (by omega)
      simp only [Bool.false_eq_true, if_false] at he ⊢
      omega

theorem reduce_emod (ty : WireType) (width : Nat) (n : Int) :
    ty.reduce width (n % byteRange width) = ty.reduce width n := by
  unfold reduce
  split
  · exact Int.emod_bmod n (byteRange width)
  · exact Int.emod_emod_of_dvd n (Int.dvd_refl _)

theorem reduce_reduce (ty : WireType) (width : Nat) (n : Int) :
    ty.reduce width (ty.reduce width n) = ty.reduce width n := by
  unfold reduce
  split
  · exact Int.bmod_bmod
  · exact Int.emod_emod_of_dvd n (Int.dvd_refl _)

theorem reduce_emod_eq (ty : WireType) (width : Nat) (n : Int) :
    ty.reduce width n % byteRange width = n % byteRange width := by
  unfold reduce
  split
  · exact Int.bmod_emod
  · exact Int.emod_emod_of_dvd n (Int.dvd_refl _)

/-- A number read from the bytes of its width is one the type holds, and is written as them. -/
theorem bytes_number {ty : WireType} {group : List UInt8} (h : ty.size? = some group.length) :
    ty.Holds (ty.number group) ∧ ty.bytes (ty.number group) = group := by
  constructor
  · rw [holds_iff_reduce h]
    exact reduce_reduce ty _ _
  · have hlt := littleEndianValue_lt group
    have he : (littleEndianValue group : Int) % byteRange group.length = littleEndianValue group :=
      Int.emod_eq_of_lt (by omega) (by omega)
    simp only [bytes, h, number]
    rw [reduce_emod_eq, he, Int.toNat_natCast, littleEndian_littleEndianValue]

/-- A number the type holds is read back from the bytes it is written in. -/
theorem number_bytes {ty : WireType} {width : Nat} {n : Int} (h : ty.size? = some width)
    (hn : ty.Holds n) : (ty.bytes n).length = width ∧ ty.number (ty.bytes n) = n := by
  obtain ⟨_, hpos⟩ := byteRange_even_of_size h
  have hlen : (ty.bytes n).length = width := by simp [bytes, h]
  refine ⟨hlen, ?_⟩
  have h0 := Int.emod_nonneg n (b := byteRange width) (by omega)
  have h1 := Int.emod_lt_of_pos n (b := byteRange width) (by omega)
  have hm : (n % byteRange width).toNat % byteRange width = (n % byteRange width).toNat :=
    Nat.mod_eq_of_lt (by omega)
  rw [number, hlen]
  simp only [bytes, h]
  rw [littleEndianValue_littleEndian, hm, Int.toNat_of_nonneg h0, reduce_emod]
  exact (holds_iff_reduce h n).mp hn

end WireType

/-! ### Texts -/

/-- The texts that bytes hold: every character has a code from 1 to 255. -/
def Latin (s : String) : Prop := ∀ ch ∈ s.toList, 0 < ch.toNat ∧ ch.toNat < 256

theorem charOfByte_byteOfChar {ch : Char} (h : ch.toNat < 256) : charOfByte (byteOfChar ch) = ch := by
  have hb : (byteOfChar ch).toNat = ch.toNat := by
    simp only [byteOfChar, h, if_true, UInt8.toNat_ofNat']
    omega
  rw [charOfByte, hb, Char.ofNat_toNat]

theorem byteOfChar_ne_zero {ch : Char} (h : 0 < ch.toNat ∧ ch.toNat < 256) : byteOfChar ch ≠ 0 := by
  intro he
  have hc := congrArg UInt8.toNat he
  simp only [byteOfChar, h.2, if_true, UInt8.toNat_ofNat', UInt8.toNat_zero] at hc
  omega

theorem latin_ofList_map {body : List UInt8} (h : ∀ b ∈ body, b ≠ 0) :
    Latin (String.ofList (body.map charOfByte)) := by
  intro ch hch
  simp only [String.toList_ofList, List.mem_map] at hch
  obtain ⟨b, hb, rfl⟩ := hch
  have hlt := b.toNat_lt
  have hne : b.toNat ≠ 0 := fun h0 => h b hb (UInt8.toNat_inj.mp h0)
  rw [toNat_charOfByte]
  omega

/-! ### Cursors -/

namespace Cursor

/-- `after` stands behind `written`, which starts at `c`. -/
def Passes (c : Cursor) (written : List UInt8) (after : Cursor) : Prop :=
  c.rest = written ++ after.rest ∧ after = c.advance written.length

theorem advance_zero (c : Cursor) : c.advance 0 = c := rfl

theorem advance_advance (c : Cursor) (m n : Nat) : (c.advance m).advance n = c.advance (m + n) := by
  simp only [advance, List.drop_drop, Nat.add_assoc]

theorem rest_advance (c : Cursor) (n : Nat) : (c.advance n).rest = c.rest.drop n := rfl

theorem passes_nil {c after : Cursor} : c.Passes [] after ↔ after = c := by
  simp only [Passes, List.length_nil, advance_zero, List.nil_append]
  constructor
  · exact fun h => h.2
  · rintro rfl
    exact ⟨rfl, rfl⟩

/-- Only the bytes under the cursor matter: `written` passes where it is a prefix of them. -/
theorem passes_iff {c after : Cursor} {written : List UInt8} :
    c.Passes written after ↔ written <+: c.rest ∧ after = c.advance written.length := by
  constructor
  · rintro ⟨h, he⟩
    exact ⟨⟨after.rest, h.symm⟩, he⟩
  · rintro ⟨⟨rest, h⟩, rfl⟩
    refine ⟨?_, rfl⟩
    rw [rest_advance, ← h, List.drop_left]

theorem passes_append {c after : Cursor} {u v : List UInt8} :
    c.Passes (u ++ v) after ↔ ∃ mid, c.Passes u mid ∧ mid.Passes v after := by
  constructor
  · rintro ⟨h, he⟩
    have hu : c.Passes u (c.advance u.length) := by
      rw [passes_iff]
      exact ⟨⟨v ++ after.rest, by rw [h, List.append_assoc]⟩, rfl⟩
    refine ⟨_, hu, ?_, ?_⟩
    · rw [rest_advance, h, List.append_assoc, List.drop_left]
    · rw [he, advance_advance, List.length_append]
  · rintro ⟨mid, ⟨h₁, e₁⟩, h₂, e₂⟩
    refine ⟨by rw [h₁, h₂, List.append_assoc], ?_⟩
    rw [e₂, e₁, advance_advance, List.length_append]

theorem Passes.position {c after : Cursor} {written : List UInt8} (h : c.Passes written after) :
    after.position = c.position + written.length := by
  rw [h.2, position_advance]

theorem byte_eq_ok_iff {c after : Cursor} {b : UInt8} :
    c.byte = .ok (b, after) ↔ c.Passes [b] after := by
  rw [passes_iff]
  unfold byte
  cases hr : c.rest with
  | nil => simp
  | cons b' rest =>
      simp only [Except.ok.injEq, Prod.mk.injEq, List.length_singleton, List.cons_prefix_cons,
        List.nil_prefix, and_true]
      exact and_congr eq_comm eq_comm

theorem take_eq_ok_iff {c after : Cursor} {n : Nat} {group : List UInt8} :
    c.take n = .ok (group, after) ↔ group.length = n ∧ c.Passes group after := by
  rw [passes_iff]
  unfold take
  constructor
  · intro h
    by_cases hl : (c.rest.take n).length = n
    · simp only [hl, if_true, Except.ok.injEq, Prod.mk.injEq] at h
      obtain ⟨rfl, rfl⟩ := h
      exact ⟨hl, List.take_prefix n c.rest, by rw [hl]⟩
    · simp only [hl, if_false, reduceCtorEq] at h
  · rintro ⟨rfl, hp, rfl⟩
    have ht : c.rest.take group.length = group := (List.prefix_iff_eq_take.mp hp).symm
    simp only [ht, if_true]

theorem takeWhile_ne_zero (body rest : List UInt8) (h : ∀ b ∈ body, b ≠ 0) :
    (body ++ 0 :: rest).takeWhile (· != 0) = body := by
  induction body with
  | nil => simp
  | cons b body ih =>
      have hb : (b != 0) = true := by simpa using h b (by simp)
      simp only [List.cons_append, List.takeWhile_cons, hb, if_true]
      rw [ih (fun x hx => h x (List.mem_cons_of_mem b hx))]

theorem eq_takeWhile_append_zero {bytes rest : List UInt8} {b : UInt8}
    (h : bytes.drop (bytes.takeWhile (· != 0)).length = b :: rest) :
    bytes = bytes.takeWhile (· != 0) ++ 0 :: rest := by
  induction bytes with
  | nil => simp at h
  | cons x bytes ih =>
      by_cases hx : x = 0
      · subst hx
        simp only [List.takeWhile_cons, bne_self_eq_false, Bool.false_eq_true, if_false,
          List.length_nil, List.drop_zero, List.cons.injEq] at h ⊢
        rw [h.2, List.nil_append]
      · have hb : (x != 0) = true := by simpa using hx
        simp only [List.takeWhile_cons, hb, if_true, List.length_cons, List.drop_succ_cons] at h ⊢
        rw [List.cons_append, ← ih h]

/-- A text is read exactly up to the zero that ends it. -/
theorem text_eq_ok_iff {c after : Cursor} {s : String} :
    c.text = .ok (s, after) ↔ Latin s ∧ c.Passes (textBytes s) after := by
  rw [passes_iff]
  unfold text
  constructor
  · intro h
    have hb : ∀ b ∈ c.rest.takeWhile (· != 0), b ≠ 0 := by
      intro b hb
      simpa using List.mem_takeWhile_imp hb
    cases hd : c.rest.drop (c.rest.takeWhile (· != 0)).length with
    | nil => simp [hd] at h
    | cons z rest =>
        simp only [hd, Except.ok.injEq, Prod.mk.injEq] at h
        obtain ⟨rfl, rfl⟩ := h
        have hw : textBytes (String.ofList ((c.rest.takeWhile (· != 0)).map charOfByte)) =
            c.rest.takeWhile (· != 0) ++ [0] := by
          simp [textBytes, Function.comp_def]
        refine ⟨latin_ofList_map hb, ⟨rest, ?_⟩, ?_⟩
        · rw [hw, List.append_assoc, List.singleton_append, ← eq_takeWhile_append_zero hd]
        · rw [hw, List.length_append, List.length_singleton]
  · rintro ⟨hs, ⟨rest, hr⟩, rfl⟩
    have hz : ∀ b ∈ s.toList.map byteOfChar, b ≠ 0 := by
      intro b hb
      obtain ⟨ch, hch, rfl⟩ := List.mem_map.mp hb
      exact byteOfChar_ne_zero (hs ch hch)
    rw [textBytes, List.append_assoc, List.singleton_append] at hr
    have hback : (s.toList.map byteOfChar).map charOfByte = s.toList := by
      rw [List.map_map]
      calc s.toList.map (charOfByte ∘ byteOfChar)
          = s.toList.map id := List.map_congr_left fun ch hch => charOfByte_byteOfChar (hs ch hch).2
        _ = s.toList := List.map_id _
    simp only [← hr, takeWhile_ne_zero _ _ hz, List.drop_left, hback, String.ofList_toList, textBytes,
      List.length_append, List.length_singleton]

end Cursor

/-! ### Values -/

/-- The values a wire type holds. -/
def Value.Fits (ty : WireType) : Value → Prop
  | .number n => ty.Holds n
  | .text s => ty = .text ∧ Latin s
  | .target _ | .unresolved _ => False

/-- The bytes of a value laid out as a wire type. A linked jump has none. -/
def Value.bytes (ty : WireType) : Value → List UInt8
  | .number n => ty.bytes n
  | .text s => textBytes s
  | .target _ | .unresolved _ => []

theorem Cursor.read_eq_ok_iff {c after : Cursor} {ty : WireType} {v : Value} :
    c.read ty = .ok (v, after) ↔ v.Fits ty ∧ c.Passes (v.bytes ty) after := by
  unfold Cursor.read
  cases hsize : ty.size? with
  | none =>
      obtain rfl := WireType.eq_text_of_size? hsize
      constructor
      · intro h
        cases ht : c.text with
        | error e => simp [ht, Except.map] at h
        | ok p =>
            simp only [ht, Except.map, Except.ok.injEq, Prod.mk.injEq] at h
            obtain ⟨rfl, rfl⟩ := h
            obtain ⟨hl, hp⟩ := Cursor.text_eq_ok_iff.mp (show c.text = .ok (p.1, p.2) from ht)
            exact ⟨⟨rfl, hl⟩, hp⟩
      · rintro ⟨hf, hp⟩
        cases v with
        | number n => simp [Value.Fits, WireType.Holds, WireType.size?] at hf
        | text s =>
            have ht : c.text = .ok (s, after) := Cursor.text_eq_ok_iff.mpr ⟨hf.2, hp⟩
            simp [ht, Except.map]
        | target i => exact hf.elim
        | unresolved n => exact hf.elim
  | some width =>
      constructor
      · intro h
        cases ht : c.take width with
        | error e => simp [ht, Except.map] at h
        | ok p =>
            simp only [ht, Except.map, Except.ok.injEq, Prod.mk.injEq] at h
            obtain ⟨rfl, rfl⟩ := h
            obtain ⟨hl, hp⟩ := Cursor.take_eq_ok_iff.mp (show c.take width = .ok (p.1, p.2) from ht)
            have hgroup : ty.size? = some p.1.length := by rw [hsize, hl]
            obtain ⟨hh, hb⟩ := WireType.bytes_number hgroup
            exact ⟨hh, by rw [Value.bytes, hb]; exact hp⟩
      · rintro ⟨hf, hp⟩
        cases v with
        | number n =>
            obtain ⟨hl, hn⟩ := WireType.number_bytes hsize hf
            have ht : c.take width = .ok (ty.bytes n, after) := Cursor.take_eq_ok_iff.mpr ⟨hl, hp⟩
            simp [ht, Except.map, hn]
        | text s => simp [Value.Fits] at hf; simp [hf.1, WireType.size?] at hsize
        | target i => exact hf.elim
        | unresolved n => exact hf.elim

/-! ### Arguments -/

/-- The value of an argument is one that its slot holds. -/
def Argument.Fits (a : Argument) : Prop := a.value.Fits a.slot.wire

theorem Argument.bytes_eq (a : Argument) : a.bytes = a.value.bytes a.slot.wire := by
  unfold Argument.bytes Value.bytes
  cases a.value <;> rfl

theorem Reader.bind_eq_ok_iff {α β : Type} {x : Reader α} {f : α → Reader β} {c after : Cursor}
    {b : β} :
    (x >>= f).run c = .ok (b, after) ↔
      ∃ a mid, x.run c = .ok (a, mid) ∧ (f a).run mid = .ok (b, after) := by
  rw [StateT.run_bind]
  cases hx : x.run c with
  | error e => simp [bind, Except.bind]
  | ok p =>
      simp only [bind, Except.bind, Except.ok.injEq]
      constructor
      · exact fun h => ⟨p.1, p.2, rfl, h⟩
      · rintro ⟨a, mid, rfl, h⟩
        exact h

theorem Reader.pure_eq_ok_iff {α : Type} {a b : α} {c after : Cursor} :
    (pure a : Reader α).run c = .ok (b, after) ↔ b = a ∧ after = c := by
  have e : (pure a : Reader α).run c = .ok (a, c) := rfl
  rw [e, Except.ok.injEq, Prod.mk.injEq]
  exact and_congr eq_comm eq_comm

theorem readByte_eq_ok_iff {c after : Cursor} {b : UInt8} :
    readByte.run c = .ok (b, after) ↔ c.Passes [b] after := by
  rw [← Cursor.byte_eq_ok_iff]
  have e : readByte.run c = c.byte.mapError .overrun := rfl
  rw [e]
  cases c.byte <;> simp [Except.mapError]

theorem readArgument_eq_ok_iff {slot : Slot} {c after : Cursor} {a : Argument} :
    (readArgument slot).run c = .ok (a, after) ↔
      a.slot = slot ∧ a.Fits ∧ c.Passes a.bytes after := by
  rw [Argument.bytes_eq, Argument.Fits]
  cases hr : c.read slot.wire with
  | error e =>
      have hread : (readArgument slot).run c = .error (.overrun e) := by
        simp [readArgument, StateT.run, hr]
      simp only [hread, reduceCtorEq, false_iff]
      rintro ⟨rfl, h⟩
      rw [← Cursor.read_eq_ok_iff, hr] at h
      cases h
  | ok p =>
      have hread : (readArgument slot).run c = .ok (⟨slot, p.1⟩, p.2) := by
        simp [readArgument, StateT.run, hr]
      simp only [hread, Except.ok.injEq, Prod.mk.injEq]
      constructor
      · rintro ⟨rfl, rfl⟩
        exact ⟨rfl, Cursor.read_eq_ok_iff.mp hr⟩
      · rintro ⟨rfl, h⟩
        rw [← Cursor.read_eq_ok_iff, hr] at h
        cases h
        exact ⟨rfl, rfl⟩

theorem readSlots_eq_ok_iff {slots : List Slot} {c after : Cursor} {args : List Argument} :
    (readSlots slots).run c = .ok (args, after) ↔
      args.map Argument.slot = slots ∧ (∀ a ∈ args, a.Fits) ∧
        c.Passes (args.flatMap Argument.bytes) after := by
  induction slots generalizing c after args with
  | nil =>
      rw [readSlots, Reader.pure_eq_ok_iff]
      constructor
      · rintro ⟨rfl, rfl⟩
        exact ⟨rfl, by simp, Cursor.passes_nil.mpr rfl⟩
      · rintro ⟨h, -, hp⟩
        obtain rfl := List.map_eq_nil_iff.mp h
        exact ⟨rfl, Cursor.passes_nil.mp hp⟩
  | cons slot slots ih =>
      simp only [readSlots, Reader.bind_eq_ok_iff, readArgument_eq_ok_iff, ih,
        Reader.pure_eq_ok_iff]
      constructor
      · rintro ⟨a, mid, ⟨rfl, hf, hp⟩, rest, mid', ⟨rfl, hfs, hps⟩, rfl, rfl⟩
        refine ⟨rfl, ?_, ?_⟩
        · intro b hb
          rcases List.mem_cons.mp hb with rfl | hb
          · exact hf
          · exact hfs b hb
        · rw [List.flatMap_cons, Cursor.passes_append]
          exact ⟨mid, hp, hps⟩
      · rintro ⟨hs, hf, hp⟩
        obtain ⟨a, rest, rfl, rfl, rfl⟩ := List.map_eq_cons_iff.mp hs
        rw [List.flatMap_cons, Cursor.passes_append] at hp
        obtain ⟨mid, hp₁, hp₂⟩ := hp
        exact ⟨a, mid, ⟨rfl, hf a (by simp), hp₁⟩, rest, after,
          ⟨rfl, fun b hb => hf b (List.mem_cons_of_mem a hb), hp₂⟩, rfl, rfl⟩

/-- The arguments follow an opcode's signature: one for each slot, then the one a direction mode
calls for, each with a value that its slot holds. -/
def ArgumentsConform (opcode : Opcode) (args : List Argument) : Prop :=
  args.map Argument.slot = opcode.slots ++
      (extraSlot? opcode.operation (args.take opcode.slots.length)).toList ∧
    ∀ a ∈ args, a.Fits

theorem readArguments_eq_ok_iff {opcode : Opcode} {c after : Cursor} {args : List Argument} :
    (readArguments opcode).run c = .ok (args, after) ↔
      ArgumentsConform opcode args ∧ c.Passes (args.flatMap Argument.bytes) after := by
  unfold readArguments ArgumentsConform
  rw [Reader.bind_eq_ok_iff]
  constructor
  · rintro ⟨signed, mid, hs, h⟩
    obtain ⟨hslots, hfits, hp⟩ := readSlots_eq_ok_iff.mp hs
    have hlen : opcode.slots.length = signed.length := by rw [← hslots, List.length_map]
    cases hx : extraSlot? opcode.operation signed with
    | none =>
        simp only [hx, Reader.pure_eq_ok_iff] at h
        obtain ⟨rfl, rfl⟩ := h
        rw [hlen, List.take_length, hx]
        exact ⟨⟨by simp [hslots], hfits⟩, hp⟩
    | some slot =>
        simp only [hx, Reader.bind_eq_ok_iff, readArgument_eq_ok_iff, Reader.pure_eq_ok_iff] at h
        obtain ⟨extra, mid', ⟨rfl, hf, hp'⟩, rfl, rfl⟩ := h
        rw [hlen, List.take_left, hx]
        refine ⟨⟨by simp [hslots], ?_⟩, ?_⟩
        · intro a ha
          rcases List.mem_append.mp ha with ha | ha
          · exact hfits a ha
          · rw [List.mem_singleton.mp ha]
            exact hf
        · rw [List.flatMap_append, Cursor.passes_append]
          exact ⟨mid, hp, by simpa using hp'⟩
  · rintro ⟨⟨hslots, hfits⟩, hp⟩
    obtain ⟨signed, extra, rfl, hsigned, hextra⟩ := List.map_eq_append_iff.mp hslots
    have hlen : opcode.slots.length = signed.length := by rw [← hsigned, List.length_map]
    rw [hlen, List.take_left] at hextra
    rw [List.flatMap_append, Cursor.passes_append] at hp
    obtain ⟨mid, hp₁, hp₂⟩ := hp
    refine ⟨signed, mid, readSlots_eq_ok_iff.mpr
      ⟨hsigned, fun a ha => hfits a (List.mem_append_left _ ha), hp₁⟩, ?_⟩
    cases hx : extraSlot? opcode.operation signed with
    | none =>
        rw [hx, Option.toList_none] at hextra
        obtain rfl := List.map_eq_nil_iff.mp hextra
        rw [List.append_nil]
        exact Reader.pure_eq_ok_iff.mpr ⟨rfl, Cursor.passes_nil.mp hp₂⟩
    | some slot =>
        rw [hx, Option.toList_some] at hextra
        obtain ⟨a, rfl, rfl⟩ := List.map_eq_singleton_iff.mp hextra
        simp only [Reader.bind_eq_ok_iff, readArgument_eq_ok_iff, Reader.pure_eq_ok_iff]
        exact ⟨a, after, ⟨rfl, hfits a (by simp), by simpa using hp₂⟩, rfl, rfl⟩

/-! ### Conditions and comparisons -/

/-- A condition is laid out as a catalog prescribes. -/
def Condition.Conforms (catalog : Catalog) (k : Condition) : Prop :=
  catalog.predicate? k.predicate.code = some k.predicate ∧
    k.param.map Argument.slot = k.predicate.param ∧ ∀ a ∈ k.param, a.Fits

/-- A comparison with a value of a predicate is laid out as a catalog prescribes. -/
def Test.Conforms (catalog : Catalog) (predicate : Predicate) (t : Test) : Prop :=
  catalog.operator? t.operator.code = some t.operator ∧
    t.operand.slot = predicate.operand ∧ t.operand.Fits

theorem entryAt?_code {α : Type} {codeOf : α → UInt8} {table : Array α} {code : UInt8} {d : α}
    (h : entryAt? codeOf table code = some d) : codeOf d = code ∧ d ∈ table := by
  unfold entryAt? at h
  obtain ⟨h₁, h₂⟩ := Option.filter_eq_some_iff.mp h
  exact ⟨by simpa using h₂, Array.mem_of_getElem? h₁⟩

theorem Reader.get_eq_ok_iff {c c' after : Cursor} :
    (get : Reader Cursor).run c = .ok (c', after) ↔ c' = c ∧ after = c := by
  have e : (get : Reader Cursor).run c = .ok (c, c) := rfl
  rw [e, Except.ok.injEq, Prod.mk.injEq]
  exact and_congr eq_comm eq_comm

theorem Reader.throw_ne_ok {α : Type} {e : ParseError} {a : α} {c after : Cursor} :
    (throw e : Reader α).run c ≠ .ok (a, after) := by
  intro h
  cases h

theorem readCondition_eq_ok_iff {catalog : Catalog} {c after : Cursor} {k : Condition} :
    (readCondition catalog).run c = .ok (k, after) ↔
      k.Conforms catalog ∧ c.Passes k.bytes after := by
  unfold readCondition Condition.Conforms Condition.bytes
  simp only [Reader.bind_eq_ok_iff, Reader.get_eq_ok_iff, readByte_eq_ok_iff]
  constructor
  · rintro ⟨_, _, ⟨rfl, rfl⟩, code, mid, hcode, h⟩
    cases hp : catalog.predicate? code with
    | none => simp only [hp] at h; exact (Reader.throw_ne_ok h).elim
    | some predicate =>
        have hc : predicate.code = code := (entryAt?_code hp).1
        cases hparam : predicate.param with
        | none =>
            simp only [hp, hparam, Reader.pure_eq_ok_iff] at h
            obtain ⟨rfl, rfl⟩ := h
            exact ⟨⟨by rw [hc, hp], by simp [hparam], by simp⟩, by simpa [hc] using hcode⟩
        | some slot =>
            simp only [hp, hparam, Reader.bind_eq_ok_iff, readArgument_eq_ok_iff,
              Reader.pure_eq_ok_iff] at h
            obtain ⟨a, mid', ⟨rfl, hf, hp'⟩, rfl, rfl⟩ := h
            refine ⟨⟨by rw [hc, hp], by simp [hparam], by simpa using hf⟩, ?_⟩
            rw [hc, ← List.singleton_append, Cursor.passes_append]
            exact ⟨mid, hcode, by simpa using hp'⟩
  · rintro ⟨⟨hpred, hparam, hfits⟩, hp⟩
    rw [← List.singleton_append, Cursor.passes_append] at hp
    obtain ⟨mid, hp₁, hp₂⟩ := hp
    refine ⟨c, c, ⟨rfl, rfl⟩, k.predicate.code, mid, hp₁, ?_⟩
    simp only [hpred]
    obtain ⟨predicate, param⟩ := k
    simp only at hparam hfits hp₂ ⊢
    cases param with
    | none =>
        rw [← hparam, Option.map_none]
        exact Reader.pure_eq_ok_iff.mpr ⟨rfl, Cursor.passes_nil.mp hp₂⟩
    | some a =>
        rw [← hparam, Option.map_some]
        simp only [Reader.bind_eq_ok_iff, readArgument_eq_ok_iff, Reader.pure_eq_ok_iff]
        exact ⟨a, after, ⟨rfl, hfits a rfl, by simpa using hp₂⟩, rfl, rfl⟩

theorem readTest_eq_ok_iff {catalog : Catalog} {predicate : Predicate} {c after : Cursor}
    {t : Test} :
    (readTest catalog predicate).run c = .ok (t, after) ↔
      t.Conforms catalog predicate ∧ c.Passes t.bytes after := by
  unfold readTest Test.Conforms Test.bytes
  simp only [Reader.bind_eq_ok_iff, Reader.get_eq_ok_iff, readByte_eq_ok_iff]
  constructor
  · rintro ⟨_, _, ⟨rfl, rfl⟩, code, mid, hcode, h⟩
    cases ho : catalog.operator? code with
    | none => simp only [ho] at h; exact (Reader.throw_ne_ok h).elim
    | some operator =>
        have hc : operator.code = code := (entryAt?_code ho).1
        simp only [ho, Reader.bind_eq_ok_iff, readArgument_eq_ok_iff, Reader.pure_eq_ok_iff] at h
        obtain ⟨a, mid', ⟨hslot, hf, hp'⟩, rfl, rfl⟩ := h
        refine ⟨⟨by rw [hc, ho], hslot, hf⟩, ?_⟩
        rw [hc, ← List.singleton_append, Cursor.passes_append]
        exact ⟨mid, hcode, hp'⟩
  · rintro ⟨⟨hop, hslot, hfits⟩, hp⟩
    rw [← List.singleton_append, Cursor.passes_append] at hp
    obtain ⟨mid, hp₁, hp₂⟩ := hp
    refine ⟨c, c, ⟨rfl, rfl⟩, t.operator.code, mid, hp₁, ?_⟩
    simp only [hop, Reader.bind_eq_ok_iff, readArgument_eq_ok_iff, Reader.pure_eq_ok_iff]
    exact ⟨t.operand, after, ⟨hslot, hfits, hp₂⟩, rfl, rfl⟩

/-- The condition and the comparison of a command are there exactly when its opcode has them. A
command without a condition compares the value of the predicate of the enclosing switch. -/
structure GuardConforms (catalog : Catalog) (opcode : Opcode) (enclosing : Option Predicate)
    (condition : Option Condition) (test : Option Test) : Prop where
  condition_isSome : condition.isSome = opcode.hasCondition
  condition_conforms : ∀ k ∈ condition, k.Conforms catalog
  test_isSome : test.isSome = opcode.hasOperator
  test_conforms : ∀ t ∈ test, ∃ predicate,
    (condition.map Condition.predicate).or enclosing = some predicate ∧ t.Conforms catalog predicate

/-- The bytes of a condition and a comparison. -/
def guardBytes (condition : Option Condition) (test : Option Test) : List UInt8 :=
  condition.toList.flatMap Condition.bytes ++ test.toList.flatMap Test.bytes

/-- The first half of a guard: the condition, when the opcode has one. -/
def readOptionalCondition (catalog : Catalog) (opcode : Opcode) : Reader (Option Condition) :=
  if opcode.hasCondition then do
    let k ← readCondition catalog
    pure (some k)
  else pure none

/-- The second half of a guard: the comparison, when the opcode has one. -/
def readOptionalTest (catalog : Catalog) (opcode : Opcode) (enclosing : Option Predicate)
    (start : Nat) (condition : Option Condition) : Reader (Option Condition × Option Test) :=
  if opcode.hasOperator then
    match (condition.map Condition.predicate).or enclosing with
    | none => throw (.caseOutsideSwitch start)
    | some predicate => do
      let test ← readTest catalog predicate
      return (condition, some test)
  else return (condition, none)

theorem readGuard_eq (catalog : Catalog) (opcode : Opcode) (enclosing : Option Predicate)
    (start : Nat) :
    readGuard catalog opcode enclosing start =
      readOptionalCondition catalog opcode >>=
        readOptionalTest catalog opcode enclosing start := by
  unfold readGuard readOptionalCondition readOptionalTest
  cases opcode.hasCondition with
  | true => simp
  | false =>
      cases enclosing with
      | none => rfl
      | some predicate => rfl

theorem readOptionalCondition_eq_ok_iff {catalog : Catalog} {opcode : Opcode} {c after : Cursor}
    {condition : Option Condition} :
    (readOptionalCondition catalog opcode).run c = .ok (condition, after) ↔
      condition.isSome = opcode.hasCondition ∧ (∀ k ∈ condition, k.Conforms catalog) ∧
        c.Passes (condition.toList.flatMap Condition.bytes) after := by
  unfold readOptionalCondition
  cases hc : opcode.hasCondition with
  | false =>
      simp only [Bool.false_eq_true, if_false, Reader.pure_eq_ok_iff]
      constructor
      · rintro ⟨rfl, rfl⟩
        exact ⟨rfl, by simp, Cursor.passes_nil.mpr rfl⟩
      · rintro ⟨h, -, hp⟩
        obtain rfl := Option.isNone_iff_eq_none.mp (Option.isSome_eq_false_iff.mp h)
        exact ⟨rfl, Cursor.passes_nil.mp hp⟩
  | true =>
      simp only [if_true, Reader.bind_eq_ok_iff, readCondition_eq_ok_iff, Reader.pure_eq_ok_iff]
      constructor
      · rintro ⟨k, mid, ⟨hk, hp⟩, rfl, rfl⟩
        exact ⟨rfl, by simpa using hk, by simpa using hp⟩
      · rintro ⟨h, hk, hp⟩
        obtain ⟨k, rfl⟩ := Option.isSome_iff_exists.mp h
        exact ⟨k, after, ⟨hk k rfl, by simpa using hp⟩, rfl, rfl⟩

theorem readGuard_eq_ok_iff {catalog : Catalog} {opcode : Opcode} {enclosing : Option Predicate}
    {start : Nat} {c after : Cursor} {condition : Option Condition} {test : Option Test} :
    (readGuard catalog opcode enclosing start).run c = .ok ((condition, test), after) ↔
      GuardConforms catalog opcode enclosing condition test ∧
        c.Passes (guardBytes condition test) after := by
  unfold guardBytes
  simp only [readGuard_eq, Reader.bind_eq_ok_iff, readOptionalCondition_eq_ok_iff]
  unfold readOptionalTest
  constructor
  · rintro ⟨k, mid, ⟨hsome, hconf, hp⟩, h⟩
    cases ho : opcode.hasOperator with
    | false =>
        simp only [ho, Bool.false_eq_true, if_false, Reader.pure_eq_ok_iff, Prod.mk.injEq] at h
        obtain ⟨⟨rfl, rfl⟩, rfl⟩ := h
        exact ⟨⟨hsome, hconf, by simp [ho], by simp⟩, by simpa using hp⟩
    | true =>
        simp only [ho, if_true] at h
        cases hs : (k.map Condition.predicate).or enclosing with
        | none => simp only [hs] at h; exact (Reader.throw_ne_ok h).elim
        | some predicate =>
            simp only [hs, Reader.bind_eq_ok_iff, readTest_eq_ok_iff, Reader.pure_eq_ok_iff,
              Prod.mk.injEq] at h
            obtain ⟨t, mid', ⟨ht, hp'⟩, ⟨rfl, rfl⟩, rfl⟩ := h
            refine ⟨⟨hsome, hconf, by simp [ho], ?_⟩, ?_⟩
            · intro t' ht'
              obtain rfl := Option.mem_some.mp ht'
              exact ⟨predicate, hs, ht⟩
            · rw [Cursor.passes_append]
              exact ⟨mid, hp, by simpa using hp'⟩
  · rintro ⟨⟨hsome, hconf, htsome, htconf⟩, hp⟩
    rw [Cursor.passes_append] at hp
    obtain ⟨mid, hp₁, hp₂⟩ := hp
    refine ⟨condition, mid, ⟨hsome, hconf, hp₁⟩, ?_⟩
    cases test with
    | none =>
        rw [← htsome]
        exact Reader.pure_eq_ok_iff.mpr ⟨rfl, Cursor.passes_nil.mp hp₂⟩
    | some t =>
        obtain ⟨predicate, hs, ht⟩ := htconf t rfl
        simp only [← htsome, Option.isSome_some, if_true, hs, Reader.bind_eq_ok_iff,
          readTest_eq_ok_iff, Reader.pure_eq_ok_iff]
        exact ⟨t, after, ⟨ht, by simpa using hp₂⟩, rfl, rfl⟩

/-! ### Commands -/

/-- A command is laid out as a catalog prescribes for a kind of script, inside a switch on the
enclosing predicate. -/
structure Command.Conforms (catalog : Catalog) (kind : ScriptKind) (enclosing : Option Predicate)
    (c : Command) : Prop where
  opcode : catalog.opcode? kind c.opcode.code = some c.opcode
  args : ArgumentsConform c.opcode c.args
  guard : GuardConforms catalog c.opcode enclosing c.condition c.test

theorem Command.bytes_length_pos (c : Command) : 0 < c.bytes.length := by
  simp [Command.bytes]

/-- **Reading and writing are inverse.** A command is read at a cursor exactly when it conforms to
the catalog, carries the offset it was read at, and its bytes lie between the cursor and the one
left behind. -/
theorem readCommand_eq_ok_iff {catalog : Catalog} {kind : ScriptKind}
    {enclosing : Option Predicate} {start : Nat} {c after : Cursor} {command : Command} :
    (readCommand catalog kind enclosing start).run c = .ok (command, after) ↔
      command.Conforms catalog kind enclosing ∧ command.offset = some start ∧
        c.Passes command.bytes after := by
  unfold readCommand
  simp only [Reader.bind_eq_ok_iff, readByte_eq_ok_iff]
  constructor
  · rintro ⟨code, mid, hcode, h⟩
    cases ho : catalog.opcode? kind code with
    | none => simp only [ho] at h; exact (Reader.throw_ne_ok h).elim
    | some opcode =>
        have hc : opcode.code = code := (entryAt?_code ho).1
        cases hfirst : opcode.argsFirst with
        | true =>
            simp only [ho, hfirst, if_true, Reader.bind_eq_ok_iff, readArguments_eq_ok_iff,
              Reader.pure_eq_ok_iff] at h
            obtain ⟨args, mid₁, ⟨hargs, hp₁⟩, guard, mid₂, hguard, rfl, rfl⟩ := h
            obtain ⟨hg, hp₂⟩ := readGuard_eq_ok_iff.mp hguard
            refine ⟨⟨by simp only [hc, ho], hargs, hg⟩, rfl, ?_⟩
            simp only [Command.bytes, hfirst, if_true, hc]
            rw [← List.singleton_append, Cursor.passes_append]
            exact ⟨mid, hcode, Cursor.passes_append.mpr ⟨mid₁, hp₁, hp₂⟩⟩
        | false =>
            simp only [ho, hfirst, Bool.false_eq_true, if_false, Reader.bind_eq_ok_iff,
              readArguments_eq_ok_iff, Reader.pure_eq_ok_iff] at h
            obtain ⟨guard, mid₁, hguard, args, mid₂, ⟨hargs, hp₂⟩, rfl, rfl⟩ := h
            obtain ⟨hg, hp₁⟩ := readGuard_eq_ok_iff.mp hguard
            refine ⟨⟨by simp only [hc, ho], hargs, hg⟩, rfl, ?_⟩
            simp only [Command.bytes, hfirst, Bool.false_eq_true, if_false, hc]
            rw [← List.singleton_append, Cursor.passes_append]
            exact ⟨mid, hcode, Cursor.passes_append.mpr ⟨mid₁, hp₁, hp₂⟩⟩
  · rintro ⟨⟨hop, hargs, hguard⟩, hoff, hp⟩
    obtain ⟨opcode, args, condition, test, offset⟩ := command
    simp only at hop hargs hguard hoff
    subst hoff
    simp only [Command.bytes] at hp
    rw [← List.singleton_append, Cursor.passes_append] at hp
    obtain ⟨mid, hp₀, hp⟩ := hp
    refine ⟨opcode.code, mid, hp₀, ?_⟩
    simp only [hop]
    cases hfirst : opcode.argsFirst with
    | true =>
        simp only [hfirst, if_true, Cursor.passes_append] at hp
        obtain ⟨mid₁, hp₁, hp₂⟩ := hp
        simp only [if_true, Reader.bind_eq_ok_iff, readArguments_eq_ok_iff, Reader.pure_eq_ok_iff]
        exact ⟨args, mid₁, ⟨hargs, hp₁⟩, (condition, test), after,
          readGuard_eq_ok_iff.mpr ⟨hguard, hp₂⟩, rfl, rfl⟩
    | false =>
        simp only [hfirst, Bool.false_eq_true, if_false, Cursor.passes_append] at hp
        obtain ⟨mid₁, hp₁, hp₂⟩ := hp
        simp only [Bool.false_eq_true, if_false, Reader.bind_eq_ok_iff, readArguments_eq_ok_iff,
          Reader.pure_eq_ok_iff]
        exact ⟨(condition, test), mid₁, readGuard_eq_ok_iff.mpr ⟨hguard, hp₁⟩, args, after,
          ⟨hargs, hp₂⟩, rfl, rfl⟩

end SceneScript
