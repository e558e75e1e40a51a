import SceneScript.Proofs.Reading

/-! # Reads that fail and reads that do not

A read either takes exactly the bytes of one value or takes nothing at all.

* `Cursor.Affords c ty`: what has to stand behind a cursor for a value of a wire type: as many bytes
  as the type is wide, or a zero for a text to end at. `Cursor.needed` is how many bytes the error
  asks for otherwise.
* `Cursor.take_eq_error_iff`, `Cursor.text_eq_error_iff`, `Cursor.read_eq_error_iff`: when a read
  fails, and with what. Together with `Cursor.read_eq_ok_iff` they leave no other outcome.
* `Cursor.Passes.slice`: what was passed is what stands between the two positions.
* `Cursor.next_all_or_nothing` puts these together. -/

namespace SceneScript

/-! ### Failures -/

namespace Cursor

/-- A value of the wire type can be read here: its width fits in the bytes that remain, or a zero
stands at the cursor or behind it for a text to end at. -/
def Affords (c : Cursor) (ty : WireType) : Prop :=
  match ty.size? with
  | some width => width ≤ c.bytes.length - c.position
  | none => ∃ k, c.position ≤ k ∧ c.bytes[k]? = some 0

/-- How many bytes a read of the wire type asks for when it fails: a text, one more than remain. -/
def needed (c : Cursor) (ty : WireType) : Nat :=
  match ty.size? with
  | some width => width
  | none => c.bytes.length - c.position + 1

theorem affords_of_size {c : Cursor} {ty : WireType} {width : Nat} (h : ty.size? = some width) :
    c.Affords ty ↔ width ≤ c.remaining := by
  simp only [Affords, h, remaining_eq]

/-- A zero at the cursor or behind it is one among the bytes that remain. -/
theorem affords_text {c : Cursor} : c.Affords .text ↔ 0 ∈ c.rest := by
  have hrest : ∀ k, c.rest[k]? = c.bytes[c.position + k]? := fun k => by
    rw [c.rest_eq, List.getElem?_drop]
  change (∃ k, c.position ≤ k ∧ c.bytes[k]? = some 0) ↔ 0 ∈ c.rest
  rw [List.mem_iff_getElem?]
  constructor
  · rintro ⟨k, hk, hzero⟩
    refine ⟨k - c.position, ?_⟩
    rw [hrest, Nat.add_sub_of_le hk, hzero]
  · rintro ⟨k, hzero⟩
    exact ⟨c.position + k, Nat.le_add_right _ _, by rw [← hrest, hzero]⟩

theorem take_eq_error_iff {c : Cursor} {n : Nat} {e : Overrun} :
    c.take n = .error e ↔ ¬ n ≤ c.remaining ∧ e = c.overrun n := by
  have hfits : (c.rest.take n).length = n ↔ n ≤ c.remaining := by
    rw [List.length_take, remaining]
    omega
  unfold take
  by_cases h : n ≤ c.remaining
  · rw [if_pos (hfits.mpr h)]
    simp [h]
  · rw [if_neg (mt hfits.mp h)]
    simp [h, eq_comm]

/-- The bytes in front of the first zero are all bytes exactly if there is no zero. -/
theorem drop_takeWhile_eq_nil_iff (bytes : List UInt8) :
    bytes.drop (bytes.takeWhile (· != 0)).length = [] ↔ 0 ∉ bytes := by
  constructor
  · intro hnil hzero
    have hall : bytes.takeWhile (· != 0) = bytes :=
      (List.takeWhile_prefix _).eq_of_length_le (List.drop_eq_nil_iff.mp hnil)
    have hne := List.mem_takeWhile_imp (hall.symm ▸ hzero)
    simp at hne
  · intro hzero
    have hall : bytes.takeWhile (· != 0) = bytes := by
      rw [List.takeWhile_eq_self_iff]
      intro b hb
      rw [bne_iff_ne]
      rintro rfl
      exact hzero hb
    rw [hall, List.drop_length]

theorem text_eq_error_iff {c : Cursor} {e : Overrun} :
    c.text = .error e ↔ 0 ∉ c.rest ∧ e = c.overrun (c.remaining + 1) := by
  rw [← drop_takeWhile_eq_nil_iff]
  unfold text
  cases hdrop : c.rest.drop (c.rest.takeWhile (· != 0)).length with
  | nil => simp [hdrop, remaining, eq_comm]
  | cons b rest => simp [hdrop]

/-- A read fails exactly if there is nothing to read, and says where and for want of what. -/
theorem read_eq_error_iff {c : Cursor} {ty : WireType} {e : Overrun} :
    c.read ty = .error e ↔ ¬ c.Affords ty ∧ e = c.overrun (c.needed ty) := by
  have hmap : ∀ {α β : Type} {x : Except Overrun α} {f : α → β},
      x.map f = .error e ↔ x = .error e := by
    intro α β x f
    cases x <;> simp [Except.map]
  cases hsize : ty.size? with
  | some width =>
      have hneeded : c.needed ty = width := by simp only [needed, hsize]
      rw [affords_of_size hsize, hneeded, ← take_eq_error_iff]
      simp only [read, hsize, hmap]
  | none =>
      obtain rfl := WireType.eq_text_of_size? hsize
      have hneeded : c.needed .text = c.remaining + 1 := by rw [remaining_eq]; rfl
      rw [affords_text, hneeded, ← text_eq_error_iff]
      exact hmap

/-! ### Bytes between two positions -/

/-- What was passed on the way from one cursor to another stands between their positions. -/
theorem Passes.slice {c after : Cursor} {written : List UInt8} (h : c.Passes written after) :
    (c.bytes.take after.position).drop c.position = written := by
  rw [List.drop_take, h.position, Nat.add_sub_cancel_left, ← c.rest_eq, h.1, List.take_left]

theorem Passes.position_le {c after : Cursor} {written : List UInt8} (h : c.Passes written after)
    (hne : written ≠ []) : c.position < after.position ∧ after.position ≤ c.bytes.length := by
  have hpos := List.length_pos_iff.mpr hne
  have hlength := congrArg List.length h.1
  rw [c.rest_eq, List.length_drop, List.length_append] at hlength
  rw [h.position]
  omega

end Cursor

/-- Every value of a wire type takes some bytes. -/
theorem Value.bytes_ne_nil {v : Value} {ty : WireType} (h : v.Fits ty) : v.bytes ty ≠ [] := by
  cases v with
  | number n =>
      cases hsize : ty.size? with
      | none => simp [Value.Fits, WireType.Holds, hsize] at h
      | some width =>
          have hlength := (WireType.number_bytes hsize h).1
          have hwidth : 0 < width := by
            cases ty <;> simp only [WireType.size?, Option.some.injEq, reduceCtorEq] at hsize <;> omega
          exact List.length_pos_iff.mp (hlength ▸ hwidth)
  | text s => simp [Value.bytes, textBytes]
  | target t => exact h.elim
  | unresolved n => exact h.elim

/-- Write a value with the wire type that it was read with. -/
def Writer.write (w : Writer) (ty : WireType) : Value → Writer
  | .number n => w.value ty n
  | .text s => w.text s
  | .target _ | .unresolved _ => w

theorem Writer.bytes_write (w : Writer) (ty : WireType) (v : Value) :
    (w.write ty v).bytes = w.bytes ++ v.bytes ty := by
  cases v with
  | number n => rfl
  | text s => rfl
  | target t => exact (List.append_nil _).symm
  | unresolved n => exact (List.append_nil _).symm

/-! ### All or nothing -/

theorem Cursor.next_eq_ok_iff {c after : Cursor} {ty : WireType} {v : Value} :
    c.next ty = (.ok v, after) ↔ c.read ty = .ok (v, after) := by
  rw [next]
  rcases c.read ty with e | ⟨u, mid⟩ <;> simp [settle]

theorem Cursor.next_eq_error_iff {c after : Cursor} {ty : WireType} {e : Overrun} :
    c.next ty = (.error e, after) ↔ c.read ty = .error e ∧ after = c := by
  rw [next]
  rcases c.read ty with e' | ⟨u, mid⟩ <;> simp [settle, eq_comm]

/-- **Reads are all or nothing.** Let a cursor stand anywhere in some bytes or past their end. A read
of a wire type succeeds exactly if the width of the type fits in the bytes that remain, or if a zero
follows for a text to end at. Then the cursor moves on within the bytes; the value is one that the
type holds, a number in its range or a text of characters with codes from 1 to 255; and written
with the same type it is the bytes that the cursor has moved over. Otherwise the cursor stays, and
the error names its position, the bytes that the read needed and how many there are in all. -/
theorem Cursor.next_all_or_nothing (c : Cursor) (ty : WireType) :
    ((∃ v, (c.next ty).1 = .ok v) ↔ c.Affords ty) ∧
    (∀ v after, c.next ty = (.ok v, after) →
      after.bytes = c.bytes ∧ c.position < after.position ∧ after.position ≤ c.bytes.length ∧
      v.Fits ty ∧ ∀ w : Writer, (w.write ty v).bytes =
        w.bytes ++ (c.bytes.take after.position).drop c.position) ∧
    ∀ e after, c.next ty = (.error e, after) →
      after = c ∧ e = ⟨c.position, c.needed ty, c.bytes.length⟩ := by
  refine ⟨?_, ?_, ?_⟩
  · rcases hnext : c.next ty with ⟨e | v, after⟩
    · obtain ⟨hread, -⟩ := next_eq_error_iff.mp hnext
      have hnone := (read_eq_error_iff.mp hread).1
      simp [hnone]
    · have hread := next_eq_ok_iff.mp hnext
      have hsome : c.Affords ty := by
        by_contra hnone
        have herror := read_eq_error_iff.mpr ⟨hnone, rfl⟩
        rw [hread] at herror
        cases herror
      simp [hsome]
  · intro v after hnext
    obtain ⟨hfits, hpasses⟩ := read_eq_ok_iff.mp (next_eq_ok_iff.mp hnext)
    obtain ⟨hmoves, hwithin⟩ := hpasses.position_le (Value.bytes_ne_nil hfits)
    refine ⟨by rw [hpasses.2]; rfl, hmoves, hwithin, hfits, ?_⟩
    intro w
    rw [hpasses.slice, Writer.bytes_write]
  · intro e after hnext
    obtain ⟨hread, hstays⟩ := next_eq_error_iff.mp hnext
    exact ⟨hstays, (read_eq_error_iff.mp hread).2⟩

end SceneScript
