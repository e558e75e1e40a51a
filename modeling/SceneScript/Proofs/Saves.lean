import Mathlib.Data.List.Forall2
import Mathlib.Data.List.Nodup
import SceneScript.Scene.Snapshot

/-! # Saved snapshots

A snapshot is saved as JSON and read back from it. Later versions of a game may save more than is
read, and other tools may leave out what is not set; neither does any harm, but nothing that is
needed may be missing.

* `Json.Restates i j`: `j` says what `i` says, with nulls left out of objects and other fields added.
* `Json.Gives read i a`: `a` is read from `i` and from all that restates it. Readers of records give
  what their fields give (`Json.Covers.required`, `Json.Covers.optional`), so there is one such lemma
  for each type: `ScriptState.gives_toJson`, `ActorState.gives_toJson`, `Snapshot.gives_toJson`.
* `Json.without`: a field taken out of an object somewhere in a value. `Snapshot.Requires` says which
  ones a snapshot cannot do without, and `Snapshot.ofJson?_without` that it is refused then.
* `Snapshot.ofJson?_toJson` puts both together. -/

namespace SceneScript

namespace Json

/-! ### The same, said differently -/

/-- `j` says what `i` says: in place of each value of an array one that says it, and of each field of
an object one of the same name, but that a null may be missing. Fields of other names do not matter,
nor does the order of the fields. -/
inductive Restates : Json → Json → Prop
  | same (j : Json) : Restates j j
  | items {is js : List Json} : List.Forall₂ Restates is js → Restates (.arr is) (.arr js)
  | fields {fs gs : List (String × Json)} :
    (∀ name v, fs.lookup name = some v → gs.lookup name = none → v = .null) →
    (∀ name v w, fs.lookup name = some v → gs.lookup name = some w → Restates v w) →
    Restates (.obj fs) (.obj gs)

/-- The fields of an object, and those of one that restates it. -/
structure Covers (fs gs : List (String × Json)) : Prop where
  unset : ∀ name v, fs.lookup name = some v → gs.lookup name = none → v = .null
  restates : ∀ name v w, fs.lookup name = some v → gs.lookup name = some w → Restates v w

theorem Restates.obj {fs : List (String × Json)} {j : Json} (h : Restates (.obj fs) j) :
    ∃ gs, j = .obj gs ∧ Covers fs gs := by
  cases h with
  | same =>
      refine ⟨fs, rfl, ?_, ?_⟩
      · intro name v hset hunset
        cases hset.symm.trans hunset
      · intro name v w hv hw
        cases hv.symm.trans hw
        exact .same v
  | fields hunset hrestates => exact ⟨_, rfl, hunset, hrestates⟩

theorem forall₂_restates_refl (js : List Json) : List.Forall₂ Restates js js :=
  List.forall₂_same.mpr fun j _ => .same j

theorem Restates.arr {is : List Json} {j : Json} (h : Restates (.arr is) j) :
    ∃ js, j = .arr js ∧ List.Forall₂ Restates is js := by
  cases h with
  | same => exact ⟨is, rfl, forall₂_restates_refl is⟩
  | items h => exact ⟨_, rfl, h⟩

theorem Restates.eq_null_iff {i j : Json} (h : Restates i j) : j = .null ↔ i = .null := by
  cases h with
  | same => rfl
  | items | fields => simp

theorem mem_of_lookup {fs : List (String × Json)} {name : String} {v : Json}
    (h : fs.lookup name = some v) : (name, v) ∈ fs := by
  obtain ⟨before, after, rfl, -⟩ := List.lookup_eq_some_iff.mp h
  simp

theorem lookup_of_forall₂ {fs gs : List (String × Json)}
    (h : List.Forall₂ (fun f g => f.1 = g.1 ∧ Restates f.2 g.2) fs gs) (name : String) :
    (fs.lookup name = none ∧ gs.lookup name = none) ∨
      ∃ v w, fs.lookup name = some v ∧ gs.lookup name = some w ∧ Restates v w := by
  induction h with
  | nil => exact .inl ⟨rfl, rfl⟩
  | @cons f g fs gs hfg _ ih =>
      obtain ⟨m, v⟩ := f
      obtain ⟨n, w⟩ := g
      obtain ⟨rfl, hvw⟩ := hfg
      rw [List.lookup_cons, List.lookup_cons]
      cases name == m with
      | true => exact .inr ⟨v, w, rfl, rfl, hvw⟩
      | false => exact ih

/-- An object is restated by leaving fields out that are null, restating the values of the others, and
adding fields of other names. -/
theorem restates_of_edit {fs gs extra : List (String × Json)} (keep : String × Json → Bool)
    (hnames : (fs.map Prod.fst).Nodup) (hkeep : ∀ f ∈ fs, keep f = false → f.2 = .null)
    (hvalues : List.Forall₂ (fun f g => f.1 = g.1 ∧ Restates f.2 g.2) (fs.filter keep) gs)
    (hextra : ∀ f ∈ extra, f.1 ∉ fs.map Prod.fst) :
    Restates (.obj fs) (.obj (gs ++ extra)) := by
  refine .fields ?_ ?_
  · intro name v hv hnone
    have hmem := mem_of_lookup hv
    by_contra hne
    have hkept : keep (name, v) = true := Bool.of_not_eq_false (mt (hkeep _ hmem) hne)
    rcases lookup_of_forall₂ hvalues name with ⟨hdropped, -⟩ | ⟨-, w, -, hw, -⟩
    · have hother := List.lookup_eq_none_iff.mp hdropped _ (List.mem_filter.mpr ⟨hmem, hkept⟩)
      simp at hother
    · rw [List.lookup_append, hw] at hnone
      cases hnone
  · intro name v w hv hw
    have hmem := mem_of_lookup hv
    rw [List.lookup_append] at hw
    rcases lookup_of_forall₂ hvalues name with ⟨-, hunset⟩ | ⟨v', w', hv', hw', hvw⟩
    · rw [hunset] at hw
      exact absurd (List.mem_map_of_mem hmem) (hextra (name, w) (mem_of_lookup hw))
    · rw [hw'] at hw
      cases hw
      have hsame := List.inj_on_of_nodup_map hnames hmem (List.mem_filter.mp (mem_of_lookup hv')).1 rfl
      cases hsame
      exact hvw

/-! ### Readers -/

/-- The number is a count or an index. -/
def IsSize (n : Nat) : Prop := n < 0x10000000000000000

instance (n : Nat) : Decidable (IsSize n) := inferInstanceAs (Decidable (n < _))

/-- The number is a signed one of 64 bits. -/
def IsInt64 (n : Int) : Prop := -0x8000000000000000 ≤ n ∧ n < 0x8000000000000000

instance (n : Int) : Decidable (IsInt64 n) := inferInstanceAs (Decidable (_ ∧ _))

/-- A value is read from a JSON value, which is not null, and from all that restates it. -/
structure Gives {α : Type} (read : Json → Option α) (i : Json) (a : α) : Prop where
  ne_null : i ≠ .null
  reads : ∀ j, Restates i j → read j = some a

theorem gives_size {n : Nat} (h : IsSize n) : Gives size? (.nat n) n where
  ne_null := by simp [nat]
  reads j hj := by
    unfold IsSize at h
    cases hj
    have hrange : (0 : Int) ≤ n ∧ (n : Int) < 0x10000000000000000 := by omega
    simp only [size?, nat, intIn?, if_pos hrange, Option.map_some, Int.toNat_natCast]

theorem gives_int64 {n : Int} (h : IsInt64 n) : Gives int64? (.int n) n where
  ne_null := by simp
  reads j hj := by
    cases hj
    exact if_pos h

theorem gives_bool (b : Bool) : Gives bool? (.bool b) b where
  ne_null := by simp
  reads j hj := by
    cases hj
    rfl

theorem gives_str (s : String) : Gives str? (.str s) s where
  ne_null := by simp
  reads j hj := by
    cases hj
    rfl

theorem gives_list {α : Type} {read : Json → Option α} {f : α → Json} {as : List α}
    (h : ∀ a ∈ as, Gives read (f a) a) : Gives (list? read) (.list f as) as where
  ne_null := by simp [list]
  reads j hj := by
    obtain ⟨js, rfl, hjs⟩ := hj.arr
    rw [List.forall₂_map_left_iff] at hjs
    clear hj
    change js.mapM read = some as
    induction hjs with
    | nil => rfl
    | @cons a j as js haj _ ih =>
        have hhead := (h a List.mem_cons_self).reads j haj
        have htail := ih fun b hb => h b (List.mem_cons_of_mem a hb)
        rw [List.mapM_cons, hhead, htail]
        rfl

/-- A field that is not null is there in all that restates the object. -/
theorem Covers.lookup {fs gs : List (String × Json)} (h : Covers fs gs) (name : String) {v : Json}
    (hv : fs.lookup name = some v) (hne : v ≠ .null) :
    ∃ w, gs.lookup name = some w ∧ Restates v w := by
  cases hw : gs.lookup name with
  | none => exact absurd (h.unset name v hv hw) hne
  | some w => exact ⟨w, rfl, h.restates name v w hv hw⟩

/-- So a required field is read from all that restates the object. -/
theorem Covers.required {fs gs : List (String × Json)} (h : Covers fs gs) {α : Type}
    {read : Json → Option α} (name : String) {v : Json} {a : α} (hv : fs.lookup name = some v)
    (hread : Gives read v a) : Json.required (fun name => gs.lookup name) name read = some a := by
  obtain ⟨w, hw, hrestates⟩ := h.lookup name hv hread.ne_null
  change (gs.lookup name).bind read = some a
  rw [hw]
  exact hread.reads w hrestates

theorem opt?_of_ne_null {α : Type} {read : Json → Option α} {j : Json} (h : j ≠ .null) :
    opt? read j = (read j).map some := by
  cases j <;> first | rfl | exact absurd rfl h

/-- So is an optional one, be it null or missing if it is not set. -/
theorem Covers.optional {fs gs : List (String × Json)} (h : Covers fs gs) {α : Type}
    {read : Json → Option α} {f : α → Json} (name : String) {o : Option α}
    (hv : fs.lookup name = some (.opt f o)) (hread : ∀ a ∈ o, Gives read (f a) a) :
    Json.optional (fun name => gs.lookup name) name read = some o := by
  unfold Json.optional
  simp only
  cases hw : gs.lookup name with
  | none =>
      have hnull := h.unset name _ hv hw
      cases o with
      | none => rfl
      | some a => exact absurd hnull (hread a rfl).ne_null
  | some w =>
      have hrestates := h.restates name _ w hv hw
      cases o with
      | none =>
          rw [hrestates.eq_null_iff.mpr rfl]
          rfl
      | some a =>
          have hset : w ≠ .null := mt hrestates.eq_null_iff.mp (hread a rfl).ne_null
          change opt? read w = some (some a)
          rw [opt?_of_ne_null hset, (hread a rfl).reads w hrestates]
          rfl

/-! ### Fields taken out -/

/-- A step into a JSON value. -/
inductive Step where
  | field (name : String)
  | item (k : Nat)
  deriving DecidableEq, Repr

/-- The value without a field of the object that a path leads to. -/
def without (name : String) : List Step → Json → Json
  | [], .obj fields => .obj (fields.filter fun f => f.1 != name)
  | .field n :: path, .obj fields =>
    .obj (fields.map fun f => if f.1 = n then (n, without name path f.2) else f)
  | .item k :: path, .arr items => .arr (items.modify k (without name path))
  | _, j => j

theorem lookup_filter_ne (name : String) (fs : List (String × Json)) :
    (fs.filter fun f => f.1 != name).lookup name = none := by
  rw [List.lookup_eq_none_iff]
  intro f hf
  rw [bne_comm]
  exact (List.mem_filter.mp hf).2

theorem lookup_map_field (n : String) (g : Json → Json) (fs : List (String × Json)) :
    (fs.map fun f => if f.1 = n then (n, g f.2) else f).lookup n = (fs.lookup n).map g := by
  induction fs with
  | nil => rfl
  | cons f fs ih =>
      obtain ⟨m, v⟩ := f
      by_cases h : m = n
      · subst h
        simp
      · have hne : (n == m) = false := beq_eq_false_iff_ne.mpr (Ne.symm h)
        simp only [List.map_cons, if_neg h, List.lookup_cons, hne, ih]

/-- A list with a value that is refused is refused. -/
theorem list?_eq_none {α : Type} {read : Json → Option α} {js : List Json} {j : Json} (hj : j ∈ js)
    (h : read j = none) : list? read (.arr js) = none := by
  change js.mapM read = none
  induction js with
  | nil => cases hj
  | cons i js ih =>
      rw [List.mapM_cons]
      rcases List.mem_cons.mp hj with rfl | hmem
      · rw [h]
        rfl
      · cases read i with
        | none => rfl
        | some a =>
            rw [ih hmem]
            rfl

/-- A required field is not read if it has been taken out. -/
theorem required_filter_ne (name : String) (fs : List (String × Json)) {α : Type}
    (read : Json → Option α) :
    required (fun n => (fs.filter fun f => f.1 != name).lookup n) name read = none := by
  rw [required, lookup_filter_ne]
  rfl

/-- Nor is it if it holds what is refused. -/
theorem required_map_field {n : String} {g : Json → Json} {fs : List (String × Json)} {v : Json}
    {α : Type} {read : Json → Option α} (hv : fs.lookup n = some v) (hread : read (g v) = none) :
    required (fun m => (fs.map fun f => if f.1 = n then (n, g f.2) else f).lookup m) n read =
      none := by
  rw [required, lookup_map_field, hv]
  exact hread

end Json

/-! ### States -/

/-- Every field of the state holds a number that the field's type can hold. -/
structure ScriptState.InRange (s : ScriptState) : Prop where
  offset : Json.IsSize s.offset
  positions : ∀ o ∈ [s.reentry, s.trackOffset, s.behaviorOffset, s.nextBehavior, s.savedOffset],
    ∀ n ∈ o, Json.IsSize n
  numbers : ∀ o ∈ [s.track, s.switchValue], ∀ n ∈ o, Json.IsInt64 n

/-- So does every field of both states. -/
structure ActorState.InRange (a : ActorState) : Prop where
  life : a.life.InRange
  moves : a.moves.InRange

/-- So does every field of the snapshot. -/
structure Snapshot.InRange (s : Snapshot) : Prop where
  scene : Json.IsSize s.scene
  actors : ∀ a ∈ s.actors, a.InRange

open Json

theorem ScriptState.gives_toJson {s : ScriptState} (h : s.InRange) :
    Gives ScriptState.ofJson? s.toJson s where
  ne_null := by simp [toJson]
  reads j hj := by
    obtain ⟨gs, rfl, hgs⟩ := hj.obj
    have hposition : ∀ o ∈ [s.reentry, s.trackOffset, s.behaviorOffset, s.nextBehavior,
        s.savedOffset], ∀ n ∈ o, Gives size? (.nat n) n :=
      fun o ho n hn => gives_size (h.positions o ho n hn)
    have hnumber : ∀ o ∈ [s.track, s.switchValue], ∀ n ∈ o, Gives int64? (.int n) n :=
      fun o ho n hn => gives_int64 (h.numbers o ho n hn)
    have hoffset := hgs.required "offset" rfl (gives_size h.offset)
    have hrunning := hgs.required "continue" rfl (gives_bool s.running)
    have hreentry := hgs.optional "reentry" rfl (hposition s.reentry (by simp))
    have htrack := hgs.optional "track" rfl (hnumber s.track (by simp))
    have htrackOffset := hgs.optional "track_offset" rfl (hposition s.trackOffset (by simp))
    have hbehaviorOffset :=
      hgs.optional "behavior_offset" rfl (hposition s.behaviorOffset (by simp))
    have hnextBehavior :=
      hgs.optional "next_behavior" rfl (hposition s.nextBehavior (by simp))
    have hsavedOffset := hgs.optional "saved_offset" rfl (hposition s.savedOffset (by simp))
    have hswitchValue := hgs.optional "switch_value" rfl (hnumber s.switchValue (by simp))
    simp only [ofJson?, record?, Option.bind_eq_bind, Option.bind_some, hoffset, hrunning, hreentry,
      htrack, htrackOffset, hbehaviorOffset, hnextBehavior, hsavedOffset, hswitchValue]
    rfl

theorem ActorState.gives_toJson {a : ActorState} (h : a.InRange) :
    Gives ActorState.ofJson? a.toJson a where
  ne_null := by simp [toJson]
  reads j hj := by
    obtain ⟨gs, rfl, hgs⟩ := hj.obj
    have hlife := hgs.required "life" rfl (ScriptState.gives_toJson h.life)
    have hmoves := hgs.required "moves" rfl (ScriptState.gives_toJson h.moves)
    simp only [ofJson?, record?, Option.bind_eq_bind, Option.bind_some, hlife, hmoves]
    rfl

theorem Snapshot.gives_toJson {s : Snapshot} (h : s.InRange) :
    Gives Snapshot.ofJson? s.toJson s where
  ne_null := by simp [toJson]
  reads j hj := by
    obtain ⟨gs, rfl, hgs⟩ := hj.obj
    have hscene := hgs.required "scene" rfl (gives_size h.scene)
    have hframe := hgs.required "frame" rfl (gives_size s.frame.toNat_lt)
    have hfingerprint := hgs.required "fingerprint" rfl (gives_str s.fingerprint)
    have hactors := hgs.required "actors" rfl
      (gives_list fun a ha => ActorState.gives_toJson (h.actors a ha))
    simp only [ofJson?, record?, Option.bind_eq_bind, Option.bind_some, hscene, hframe,
      hfingerprint, hactors, UInt64.ofNat_toNat]
    rfl

/-! ### What cannot be left out -/

/-- A record is refused if one of its required fields cannot be read. -/
theorem ScriptState.ofJson?_eq_none {fs : List (String × Json)}
    (h : required (fun n => fs.lookup n) "offset" size? = none ∨
      required (fun n => fs.lookup n) "continue" bool? = none) :
    ScriptState.ofJson? (.obj fs) = none := by
  rcases h with h | h <;> simp [ofJson?, record?, h]

theorem ActorState.ofJson?_eq_none {fs : List (String × Json)} {script : String}
    (hscript : script ∈ ["life", "moves"])
    (h : required (fun n => fs.lookup n) script ScriptState.ofJson? = none) :
    ActorState.ofJson? (.obj fs) = none := by
  rcases List.mem_pair.mp hscript with rfl | rfl <;> simp [ofJson?, record?, h]

theorem Snapshot.ofJson?_eq_none {fs : List (String × Json)}
    (h : required (fun n => fs.lookup n) "scene" size? = none ∨
      required (fun n => fs.lookup n) "frame" size? = none ∨
      required (fun n => fs.lookup n) "fingerprint" str? = none ∨
      required (fun n => fs.lookup n) "actors" (list? ActorState.ofJson?) = none) :
    Snapshot.ofJson? (.obj fs) = none := by
  rcases h with h | h | h | h <;> simp [ofJson?, record?, h]

/-- The fields that a snapshot of so many actors cannot do without, each with the path to the object
that it is a field of: its own, the two states of an actor, and two fields of each state. -/
inductive Snapshot.Requires (actors : Nat) : List Json.Step → String → Prop
  | own {name : String} : name ∈ ["scene", "frame", "fingerprint", "actors"] → Requires actors [] name
  | script {k : Nat} {name : String} : k < actors → name ∈ ["life", "moves"] →
    Requires actors [.field "actors", .item k] name
  | state {k : Nat} {script name : String} : k < actors → script ∈ ["life", "moves"] →
    name ∈ ["offset", "continue"] →
    Requires actors [.field "actors", .item k, .field script] name

theorem ScriptState.ofJson?_without {name : String} (hname : name ∈ ["offset", "continue"])
    (fs : List (String × Json)) : ScriptState.ofJson? ((Json.obj fs).without name []) = none := by
  apply ofJson?_eq_none
  rcases List.mem_pair.mp hname with rfl | rfl
  · exact .inl (required_filter_ne "offset" fs size?)
  · exact .inr (required_filter_ne "continue" fs bool?)

theorem ActorState.ofJson?_without {name : String} (hname : name ∈ ["life", "moves"])
    (fs : List (String × Json)) : ActorState.ofJson? ((Json.obj fs).without name []) = none :=
  ofJson?_eq_none hname (required_filter_ne name fs _)

theorem ActorState.ofJson?_without_state {script name : String} (hscript : script ∈ ["life", "moves"])
    (hname : name ∈ ["offset", "continue"]) {fs gs : List (String × Json)}
    (hgs : fs.lookup script = some (.obj gs)) :
    ActorState.ofJson? ((Json.obj fs).without name [.field script]) = none :=
  ofJson?_eq_none hscript (required_map_field hgs (ScriptState.ofJson?_without hname gs))

/-- An object is refused without one of a snapshot's own fields. -/
theorem Snapshot.ofJson?_without_own {name : String}
    (hname : name ∈ ["scene", "frame", "fingerprint", "actors"]) (fs : List (String × Json)) :
    Snapshot.ofJson? ((Json.obj fs).without name []) = none := by
  apply ofJson?_eq_none
  simp only [List.mem_cons, List.not_mem_nil, or_false] at hname
  rcases hname with rfl | rfl | rfl | rfl
  · exact .inl (required_filter_ne "scene" fs size?)
  · exact .inr (.inl (required_filter_ne "frame" fs size?))
  · exact .inr (.inr (.inl (required_filter_ne "fingerprint" fs str?)))
  · exact .inr (.inr (.inr (required_filter_ne "actors" fs _)))

/-- It is refused with an actor that is refused. -/
theorem Snapshot.ofJson?_without_actor {name : String} {path : List Json.Step} {k : Nat}
    {fs : List (String × Json)} {js : List Json} {j : Json} (hjs : fs.lookup "actors" = some (.arr js))
    (hj : js[k]? = some j) (h : ActorState.ofJson? (j.without name path) = none) :
    Snapshot.ofJson? ((Json.obj fs).without name (.field "actors" :: .item k :: path)) = none := by
  have hmem : j.without name path ∈ js.modify k (Json.without name path) := by
    rw [List.mem_iff_getElem?]
    exact ⟨k, by simp [hj]⟩
  exact ofJson?_eq_none (.inr (.inr (.inr (required_map_field hjs (list?_eq_none hmem h)))))

/-- Each actor's states are objects, in all that restates an actor. -/
theorem ActorState.restates_state {a : ActorState} {j : Json} (h : Restates a.toJson j)
    {script : String} (hscript : script ∈ ["life", "moves"]) :
    ∃ fs gs, j = .obj fs ∧ fs.lookup script = some (.obj gs) := by
  obtain ⟨fs, rfl, hfs⟩ := h.obj
  have hstate : ∃ s : ScriptState, [("life", a.life.toJson), ("moves", a.moves.toJson)].lookup script =
      some s.toJson := by
    rcases List.mem_pair.mp hscript with rfl | rfl
    · exact ⟨a.life, rfl⟩
    · exact ⟨a.moves, rfl⟩
  obtain ⟨s, hs⟩ := hstate
  obtain ⟨w, hw, hrestates⟩ := hfs.lookup script hs (by simp [ScriptState.toJson])
  obtain ⟨gs, rfl, -⟩ := hrestates.obj
  exact ⟨fs, gs, rfl, hw⟩

/-- Each actor is in the list of actors, in all that restates the snapshot. -/
theorem Snapshot.restates_actor {s : Snapshot} {fs : List (String × Json)}
    (h : Restates s.toJson (.obj fs)) {k : Nat} (hk : k < s.actors.length) :
    ∃ js j, fs.lookup "actors" = some (.arr js) ∧ js[k]? = some j ∧
      Restates s.actors[k].toJson j := by
  obtain ⟨gs, hobj, hgs⟩ := h.obj
  obtain rfl : fs = gs := Json.obj.inj hobj
  obtain ⟨w, hw, hrestates⟩ :=
    hgs.lookup "actors" (v := .list ActorState.toJson s.actors) rfl (by simp [Json.list])
  obtain ⟨js, rfl, hjs⟩ := hrestates.arr
  obtain ⟨hlength, heach⟩ := List.forall₂_iff_get.mp hjs
  rw [List.length_map] at hlength
  have hk' : k < js.length := hlength ▸ hk
  have hactor := heach k (by rwa [List.length_map]) hk'
  simp only [List.get_eq_getElem, List.getElem_map] at hactor
  exact ⟨js, js[k], hw, List.getElem?_eq_getElem hk', hactor⟩

/-- What restates a snapshot is refused without a required field. -/
theorem Snapshot.ofJson?_without {s : Snapshot} {j : Json} (hj : Restates s.toJson j)
    {path : List Json.Step} {name : String} (h : Requires s.actors.length path name) :
    Snapshot.ofJson? (j.without name path) = none := by
  obtain ⟨fs, rfl, -⟩ := hj.obj
  cases h with
  | own hname => exact ofJson?_without_own hname fs
  | script hk hname =>
      obtain ⟨js, j, hjs, hj, hactor⟩ := restates_actor hj hk
      obtain ⟨gs, rfl, -⟩ := hactor.obj
      exact ofJson?_without_actor hjs hj (ActorState.ofJson?_without hname gs)
  | state hk hscript hname =>
      obtain ⟨js, j, hjs, hj, hactor⟩ := restates_actor hj hk
      obtain ⟨gs, as, rfl, has⟩ := ActorState.restates_state hactor hscript
      exact ofJson?_without_actor hjs hj (ActorState.ofJson?_without_state hscript hname has)

/-- **Saved snapshots come back unchanged.** A snapshot whose fields are in the ranges of their types
is read back from its JSON form. It is read too from everything that says the same: fields that are
not set may be missing instead of null, in any of the states, and any other fields may be there, in
the snapshot, its actors and their states. But from what lacks one of the required fields nothing
is read: one of the snapshot's own fields, a state of one of its actors, or the offset or the running
flag of one of these states. -/
theorem Snapshot.ofJson?_toJson (s : Snapshot) (h : s.InRange) :
    Snapshot.ofJson? s.toJson = some s ∧
    ∀ j, Restates s.toJson j →
      Snapshot.ofJson? j = some s ∧
      ∀ path name, Requires s.actors.length path name →
        Snapshot.ofJson? (j.without name path) = none := by
  have hgives := gives_toJson h
  refine ⟨hgives.reads _ (.same _), ?_⟩
  intro j hj
  refine ⟨hgives.reads j hj, ?_⟩
  intro path name hrequires
  exact ofJson?_without hj hrequires

/-- A snapshot with the largest and the smallest numbers, saved with what is not set in a life script
left out and with fields of a later version: it is read back, but not without the running flag. -/
theorem Snapshot.ofJson?_toJson_boundary :
    let life : ScriptState :=
      { offset := 0xFFFFFFFFFFFFFFFF, running := true, reentry := none, savedOffset := some 7,
        switchValue := some (-0x8000000000000000) }
    let s : Snapshot := ⟨0xFFFFFFFFFFFFFFFF, 0xFFFFFFFFFFFFFFFF, "9f", [⟨life, {}⟩]⟩
    let kept : List (String × Json) := [("offset", .nat 0xFFFFFFFFFFFFFFFF), ("continue", .bool true),
      ("saved_offset", .nat 7), ("switch_value", .int (-0x8000000000000000))]
    let actor : Json := .obj ([("life", .obj (kept ++ [("mood", .str "calm")])),
      ("moves", ScriptState.toJson {})] ++ [("name", .str "guard")])
    let saved : Json := .obj ([("scene", .nat 0xFFFFFFFFFFFFFFFF), ("frame", .nat 0xFFFFFFFFFFFFFFFF),
      ("fingerprint", .str "9f"), ("actors", .arr [actor])] ++ [("version", .int 2)])
    s.InRange ∧ Restates s.toJson saved ∧ Snapshot.ofJson? saved = some s ∧
      Snapshot.ofJson?
        (saved.without "continue" [.field "actors", .item 0, .field "life"]) = none := by
  intro life s kept actor saved
  have hrange : s.InRange := by
    refine ⟨by decide, ?_⟩
    intro a ha
    obtain rfl := List.mem_singleton.mp ha
    exact ⟨⟨by decide, by decide, by decide⟩, ⟨by decide, by decide, by decide⟩⟩
  have hlife : Restates life.toJson (.obj (kept ++ [("mood", .str "calm")])) := by
    refine restates_of_edit (fun f => f.1 ∈ kept.map Prod.fst) ?_ ?_ ?_ ?_
    · decide
    · simp [kept, life, opt]
    · exact .cons ⟨rfl, .same _⟩ (.cons ⟨rfl, .same _⟩ (.cons ⟨rfl, .same _⟩
        (.cons ⟨rfl, .same _⟩ .nil)))
    · decide
  have hactor : Restates (ActorState.toJson ⟨life, {}⟩) actor := by
    refine restates_of_edit (fun _ => true) ?_ (by simp) ?_ ?_
    · decide
    · exact .cons ⟨rfl, hlife⟩ (.cons ⟨rfl, .same _⟩ .nil)
    · decide
  have hsaved : Restates s.toJson saved := by
    refine restates_of_edit (fun _ => true) ?_ (by simp) ?_ ?_
    · decide
    · exact .cons ⟨rfl, .same _⟩ (.cons ⟨rfl, .same _⟩ (.cons ⟨rfl, .same _⟩
        (.cons ⟨rfl, .items (.cons hactor .nil)⟩ .nil)))
    · decide
  obtain ⟨hread, hmissing⟩ := (ofJson?_toJson s hrange).2 saved hsaved
  exact ⟨hrange, hsaved, hread, hmissing _ _ (.state (by decide) (by decide) (by decide))⟩

end SceneScript
