import SceneScript.Proofs.Reading

/-! # Streams of wire values

Values written one after the other are read back one after the other, with the same types in the
same order. No length is written between them, so this rests on every read ending exactly where its
item does.

* `WireItem`: what a writer is given, a number in some wire type or a text; `WireItem.readBack` is
  the value it comes back as. A number is reduced to the width of its type, a character without a
  byte comes back as a question mark, and a number written as a text comes back in decimal.
* `WireItem.fits_readBack`, `WireItem.bytes_readBack`: this value is one its type holds and is
  written in the same bytes, so reading it is `Cursor.read_eq_ok_iff`.
* `readAll_written`: whole streams, and where each read starts and ends. -/

namespace SceneScript

/-! ### Numbers out of range -/

namespace WireType

/-- A reduced number is one the type holds. -/
theorem holds_reduce {ty : WireType} {width : Nat} (h : ty.size? = some width) (n : Int) :
    ty.Holds (ty.reduce width n) :=
  (holds_iff_reduce h _).mpr (ty.reduce_reduce width n)

/-- Only what remains of a number at its width is written. -/
theorem bytes_reduce {ty : WireType} {width : Nat} (h : ty.size? = some width) (n : Int) :
    ty.bytes (ty.reduce width n) = ty.bytes n := by
  simp only [bytes, h, reduce_emod_eq]

theorem dvd_reduce_sub (ty : WireType) (width : Nat) (n : Int) :
    (byteRange width : Int) ∣ ty.reduce width n - n := by
  apply Int.dvd_of_emod_eq_zero
  rw [Int.sub_emod, reduce_emod_eq, Int.sub_self, Int.zero_emod]

end WireType

/-! ### Texts with other characters -/

/-- The text with a question mark for every character that has no byte. -/
def latinized (s : String) : String := s.map fun ch => if ch.toNat < 256 then ch else '?'

theorem latin_latinized {s : String} (h : ∀ ch ∈ s.toList, ch.toNat ≠ 0) : Latin (latinized s) := by
  intro ch hch
  rw [latinized, String.toList_map, List.mem_map] at hch
  obtain ⟨c, hc, rfl⟩ := hch
  have hpos := h c hc
  split
  · omega
  · decide

/-- What has no byte is written as a question mark. -/
theorem textBytes_latinized (s : String) : textBytes (latinized s) = textBytes s := by
  have hbyte : ∀ ch : Char, byteOfChar (if ch.toNat < 256 then ch else '?') = byteOfChar ch := by
    intro ch
    split
    · rfl
    · next hlarge =>
        rw [byteOfChar, byteOfChar, if_neg hlarge]
        rfl
  simp only [textBytes, latinized, String.toList_map, List.map_map, Function.comp_def, hbyte]

theorem latin_of_isDigit {ch : Char} (h : ch.isDigit = true) : 0 < ch.toNat ∧ ch.toNat < 256 := by
  obtain ⟨hlow, hhigh⟩ := Char.isDigit_iff_toNat.mp h
  have h0 : Char.toNat '0' = 48 := rfl
  have h9 : Char.toNat '9' = 57 := rfl
  omega

theorem latin_repr (n : Nat) : Latin n.repr := by
  intro ch hch
  rw [Nat.toList_repr] at hch
  exact latin_of_isDigit (Nat.isDigit_of_mem_toDigits (by decide) (by decide) hch)

theorem latin_toString (n : Int) : Latin (toString n) := by
  rw [Int.toString_eq_repr]
  cases n with
  | ofNat n => exact latin_repr n
  | negSucc n =>
      intro ch hch
      rw [Int.repr, String.toList_append, List.mem_append] at hch
      rcases hch with hsign | hdigits
      · obtain rfl : ch = '-' := List.mem_singleton.mp hsign
        decide
      · exact latin_repr n.succ ch hdigits

/-! ### Items -/

/-- Something to write: a number in some wire type, or a text. -/
inductive WireItem where
  | value (ty : WireType) (n : Int)
  | text (s : String)
  deriving DecidableEq, Repr

namespace WireItem

def type : WireItem → WireType
  | .value ty _ => ty
  | .text _ => .text

/-- A text that holds a zero ends there and is not read back. -/
def Writable : WireItem → Prop
  | .value _ _ => True
  | .text s => ∀ ch ∈ s.toList, ch.toNat ≠ 0

def write (w : Writer) : WireItem → Writer
  | .value ty n => w.value ty n
  | .text s => w.text s

def bytes : WireItem → List UInt8
  | .value ty n => ty.bytes n
  | .text s => textBytes s

/-- What an item is read back as. -/
def readBack : WireItem → Value
  | .value ty n =>
    match ty.size? with
    | some width => .number (ty.reduce width n)
    | none => .text (toString n)
  | .text s => .text (latinized s)

@[simp] theorem bytes_write (w : Writer) (item : WireItem) :
    (item.write w).bytes = w.bytes ++ item.bytes := by
  cases item <;> rfl

theorem readBack_number {ty : WireType} {width : Nat} (h : ty.size? = some width) (n : Int) :
    (value ty n).readBack = .number (ty.reduce width n) := by
  simp only [readBack, h]

theorem readBack_decimal {ty : WireType} (h : ty.size? = none) (n : Int) :
    (value ty n).readBack = .text (toString n) := by
  simp only [readBack, h]

/-- The value an item is read back as is one its type holds. -/
theorem fits_readBack {item : WireItem} (h : item.Writable) : item.readBack.Fits item.type := by
  cases item with
  | value ty n =>
      cases hsize : ty.size? with
      | some width =>
          rw [readBack_number hsize]
          exact WireType.holds_reduce hsize n
      | none =>
          rw [readBack_decimal hsize]
          exact ⟨WireType.eq_text_of_size? hsize, latin_toString n⟩
  | text s => exact ⟨rfl, latin_latinized h⟩

/-- The value an item is read back as is written as the item is. -/
theorem bytes_readBack (item : WireItem) : item.readBack.bytes item.type = item.bytes := by
  cases item with
  | value ty n =>
      cases hsize : ty.size? with
      | some width =>
          rw [readBack_number hsize]
          exact WireType.bytes_reduce hsize n
      | none =>
          rw [readBack_decimal hsize]
          simp only [Value.bytes, bytes, WireType.bytes, hsize]
  | text s => exact textBytes_latinized s

/-- An item is read from exactly the bytes it is written in. -/
theorem read_of_passes {item : WireItem} (h : item.Writable) {c after : Cursor}
    (hpasses : c.Passes item.bytes after) : c.read item.type = .ok (item.readBack, after) := by
  rw [Cursor.read_eq_ok_iff, bytes_readBack]
  exact ⟨fits_readBack h, hpasses⟩

end WireItem

/-! ### Streams -/

/-- Items written one after the other. -/
def written (items : List WireItem) : Writer := items.foldl WireItem.write {}

theorem bytes_foldl_write (items : List WireItem) (w : Writer) :
    (items.foldl WireItem.write w).bytes = w.bytes ++ items.flatMap WireItem.bytes := by
  induction items generalizing w with
  | nil => simp
  | cons item items ih => rw [List.foldl_cons, ih, WireItem.bytes_write, List.flatMap_cons,
      List.append_assoc]

theorem bytes_written (items : List WireItem) :
    (written items).bytes = items.flatMap WireItem.bytes := bytes_foldl_write items {}

namespace Cursor

/-- Read values of some types, one after the other. -/
def readAll (c : Cursor) : List WireType → Except Overrun (List Value × Cursor)
  | [] => .ok ([], c)
  | ty :: types =>
    match c.read ty with
    | .error e => .error e
    | .ok (v, mid) => (mid.readAll types).map fun (vs, after) => (v :: vs, after)

/-- Items are read from exactly the bytes they are written in. -/
theorem readAll_of_passes {items : List WireItem} (h : ∀ item ∈ items, item.Writable)
    {c after : Cursor} (hpasses : c.Passes (items.flatMap WireItem.bytes) after) :
    c.readAll (items.map WireItem.type) = .ok (items.map WireItem.readBack, after) := by
  induction items generalizing c with
  | nil =>
      rw [passes_nil.mp hpasses]
      rfl
  | cons item items ih =>
      obtain ⟨mid, hitem, hrest⟩ := passes_append.mp hpasses
      have hread := WireItem.read_of_passes (h item List.mem_cons_self) hitem
      have hall := ih (fun i hi => h i (List.mem_cons_of_mem item hi)) hrest
      simp only [List.map_cons, readAll, hread, hall, Except.map]

theorem passes_seek (before written after : List UInt8) :
    (seek (before ++ written ++ after) before.length).Passes written
      (seek (before ++ written ++ after) (before ++ written).length) := by
  have hdrop : (before ++ written ++ after).drop before.length = written ++ after := by
    rw [List.append_assoc, List.drop_left]
  refine ⟨?_, ?_⟩
  · change (before ++ written ++ after).drop before.length =
      written ++ (before ++ written ++ after).drop (before ++ written).length
    rw [hdrop, List.drop_left]
  · simp only [seek, advance, List.length_append, List.drop_drop]

end Cursor

/-- **Streams are read back item by item.** Write any items, numbers in any wire types and texts
without a zero, and read with the same types from the first byte on: every read succeeds, the values
are those the items are read back as, and the last read ends at the end of the bytes. Each item is
read where it was written: from the position of the writer before it to the position behind it, and
the bytes in between are the item's own. A number is read back as the one that its type holds and
that differs from it by a multiple of the range of the type, which is the number itself if the type
holds it. -/
theorem readAll_written (items : List WireItem) (h : ∀ item ∈ items, item.Writable) :
    let bytes := (written items).bytes
    let final := Cursor.seek bytes bytes.length
    ((Cursor.start bytes).readAll (items.map WireItem.type) =
        .ok (items.map WireItem.readBack, final) ∧ final.atEnd = true) ∧
    (∀ before item after, items = before ++ item :: after →
      let here := (written before).position
      let there := (written (before ++ [item])).position
      (Cursor.seek bytes here).read item.type = .ok (item.readBack, Cursor.seek bytes there) ∧
        (bytes.take there).drop here = item.bytes) ∧
    ∀ ty n width, ty.size? = some width →
      ∃ m, (WireItem.value ty n).readBack = .number m ∧ ty.Holds m ∧
        (byteRange width : Int) ∣ m - n ∧ (ty.Holds n → m = n) := by
  intro bytes final
  have hbytes : bytes = items.flatMap WireItem.bytes := bytes_written items
  refine ⟨⟨?_, ?_⟩, ?_, ?_⟩
  · apply Cursor.readAll_of_passes h
    rw [← hbytes]
    have hpasses := Cursor.passes_seek [] bytes []
    rwa [List.nil_append, List.append_nil] at hpasses
  · rw [Cursor.atEnd_iff]
    exact Nat.le_refl bytes.length
  · intro before item after hitems here there
    have hhere : here = (before.flatMap WireItem.bytes).length :=
      congrArg List.length (bytes_written before)
    have hthere : there = (before.flatMap WireItem.bytes ++ item.bytes).length := by
      rw [← List.flatMap_singleton WireItem.bytes item, ← List.flatMap_append]
      exact congrArg List.length (bytes_written (before ++ [item]))
    have hsplit : bytes = before.flatMap WireItem.bytes ++ item.bytes ++
        after.flatMap WireItem.bytes := by
      rw [hbytes, hitems, List.flatMap_append, List.flatMap_cons, List.append_assoc]
    have hitem : item.Writable := h item (by rw [hitems]; simp)
    rw [hhere, hthere, hsplit]
    refine ⟨WireItem.read_of_passes hitem (Cursor.passes_seek _ _ _), ?_⟩
    rw [List.take_left, List.drop_left]
  · intro ty n width hsize
    exact ⟨ty.reduce width n, WireItem.readBack_number hsize n, WireType.holds_reduce hsize n,
      ty.dvd_reduce_sub width n, (WireType.holds_iff_reduce hsize n).mp⟩

/-- A stream of every kind of item: a number of two bytes that is negative, one of four bytes that is
out of range, a text with a character that has no byte, and a number in decimal. -/
theorem readAll_written_mixed :
    let items : List WireItem :=
      [.value .int16 (-20), .text "a€", .value .uint32 0x100000007, .value .text (-12)]
    let bytes := (written items).bytes
    bytes = [0xEC, 0xFF, 97, 63, 0, 7, 0, 0, 0, 45, 49, 50, 0] ∧
      (Cursor.start bytes).readAll [.int16, .text, .uint32, .text] =
        .ok ([.number (-20), .text "a?", .number 7, .text "-12"], Cursor.seek bytes bytes.length) := by
  intro items bytes
  have hitems : ∀ item ∈ items, item.Writable := by
    simp [items, WireItem.Writable]
  refine ⟨by decide +kernel, ?_⟩
  have hvalues : items.map WireItem.readBack =
      [.number (-20), .text "a?", .number 7, .text "-12"] := by decide +kernel
  rw [← hvalues]
  exact (readAll_written items hitems).1.1

end SceneScript
