import SearchIndex.Json
import SearchIndex.Proofs.Related
import SearchIndex.Proofs.Table.OfList
import Mathlib.Data.List.Perm.Subperm

/-!
# Equality of values

Two values are equal (`Json.same`) if they have the same form, and objects in whatever order
their members are. That this is an equivalence is not plain from how it is decided: the members
of one object are looked up in the other, and only the numbers of members are compared the other
way round. It holds where every object has distinct keys (`Json.WellFormed`), as all documents
have that are read or written. There it comes to looking up every key in both objects
(`Document.same_iff`), and the laws follow from those of the values under one key.

Documents that agree (`Document.Agrees`) go on to do so when the same is written into both.
-/

namespace SearchIndex

/-- The value has distinct keys in every object in it. -/
inductive Json.WellFormed : Json → Prop where
  | scalar {v : Json} (notArray : v.items? = none) (notObject : v.members? = none) : WellFormed v
  | array {items : List Json} (inside : ∀ v ∈ items, WellFormed v) : WellFormed (.array items)
  | object {members : Document} (distinct : members.keys.Nodup)
      (inside : ∀ e ∈ members.entries, WellFormed e.2) : WellFormed (.object members)

/-- A number as its sort and its place in the order of the numbers of that sort. -/
def Number.place : Number → Int ⊕ Int
  | .int n => .inl n
  | .real x => .inr x.key

/-- Numbers are equal if they are of one sort and at one place. -/
theorem Number.same_iff {x y : Number} : x.same y = true ↔ x.place = y.place := by
  cases x <;> cases y <;> simp [same, place]

namespace Json

/-! ### One level -/

theorem sameItems_iff {xs ys : List Json} :
    sameItems xs ys = true ↔ List.Forall₂ (fun v w => v.same w = true) xs ys := by
  induction xs generalizing ys with
  | nil => cases ys <;> simp [sameItems]
  | cons x rest ih =>
    cases ys with
    | nil => simp [sameItems]
    | cons y ys => simp [sameItems, ih]

theorem same_array {xs ys : List Json} : (Json.array xs).same (.array ys) = true ↔
    List.Forall₂ (fun v w => v.same w = true) xs ys :=
  sameItems_iff

theorem exists_of_same_array {xs : List Json} {w : Json} (h : (Json.array xs).same w = true) :
    ∃ ys, w = .array ys ∧ List.Forall₂ (fun v w => v.same w = true) xs ys := by
  cases w with
  | array ys => exact ⟨ys, rfl, same_array.mp h⟩
  | _ => exact absurd h Bool.false_ne_true

theorem exists_of_same_object {s : Document} {w : Json} (h : (Json.object s).same w = true) :
    ∃ t, w = .object t ∧ Document.same s t = true := by
  cases w with
  | object t => exact ⟨t, rfl, h⟩
  | _ => exact absurd h Bool.false_ne_true

/-- Equality of values that are neither arrays nor objects. -/
inductive SameScalar : Json → Json → Prop where
  | null : SameScalar .null .null
  | bool (b : Bool) : SameScalar (.bool b) (.bool b)
  | number {x y : Number} (h : x.place = y.place) : SameScalar (.number x) (.number y)
  | string (s : String) : SameScalar (.string s) (.string s)

theorem SameScalar.same {v w : Json} (h : SameScalar v w) : v.same w = true := by
  cases h with
  | null => rfl
  | bool b => exact beq_self_eq_true b
  | number h => exact Number.same_iff.mpr h
  | string s => exact beq_self_eq_true s

/-- What equals a scalar is one too. -/
theorem sameScalar_of_same {v w : Json} (notArray : v.items? = none)
    (notObject : v.members? = none) (h : v.same w = true) : SameScalar v w := by
  -- for each sort of scalar, the other value has to be of that sort
  cases v with
  | array items => cases notArray
  | object members => cases notObject
  | null =>
    cases w with
    | null => exact .null
    | _ => exact absurd h Bool.false_ne_true
  | bool b =>
    cases w with
    | bool b' => exact eq_of_beq h ▸ .bool b
    | _ => exact absurd h Bool.false_ne_true
  | number x =>
    cases w with
    | number y => exact .number (Number.same_iff.mp h)
    | _ => exact absurd h Bool.false_ne_true
  | string s =>
    cases w with
    | string s' => exact eq_of_beq h ▸ .string s
    | _ => exact absurd h Bool.false_ne_true

/-- The members of an object are looked up in the other one. -/
theorem sameMembers_iff {es : List (String × Json)} {t : Document} :
    sameMembers es t = true ↔ ∀ e ∈ es, ∃ w, t.get? e.1 = some w ∧ e.2.same w = true := by
  induction es with
  | nil => simp [sameMembers]
  | cons e rest ih =>
    obtain ⟨key, v⟩ := e
    rw [sameMembers, Bool.and_eq_true, ih, List.forall_mem_cons]
    refine and_congr_left fun _ => ?_
    cases t.get? key <;> simp

end Json

/-- **Documents are equal** if every key finds equal values in both, or none in either. -/
theorem Document.same_iff {s t : Document} (hs : s.keys.Nodup) (ht : t.keys.Nodup) :
    s.same t = true ↔
      ∀ key, Option.Rel (fun v w => v.same w = true) (s.get? key) (t.get? key) := by
  have hsame : s.same t = true ↔ s.size = t.size ∧
      ∀ e ∈ s.entries, ∃ w, t.get? e.1 = some w ∧ e.2.same w = true := by
    obtain ⟨es⟩ := s
    change (es.length == t.size && Json.sameMembers es t) = true ↔ _
    rw [Bool.and_eq_true, beq_iff_eq, Json.sameMembers_iff]
    rfl
  have hlength : ∀ d : Document, d.keys.length = d.size := fun d => List.length_map _
  rw [hsame]
  constructor
  · rintro ⟨hsize, hfound⟩ key
    cases hkey : s.get? key with
    | some v =>
      -- what is found in the first is found in the second, with an equal value
      obtain ⟨w, hw, hvw⟩ := hfound (key, v) ((Table.get?_eq_some_iff hs).mp hkey)
      rw [hw]
      exact .some hvw
    | none =>
      -- as many keys are found in the other document as it has, so it has no more
      have hsub : s.keys ⊆ t.keys := by
        intro k hk
        obtain ⟨e, he, rfl⟩ := List.mem_map.mp hk
        obtain ⟨w, hw, -⟩ := hfound e he
        exact Table.mem_keys_iff.mpr (hw ▸ rfl)
      have hperm : s.keys.Perm t.keys := by
        apply (List.subperm_of_subset hs hsub).perm_of_length_le
        rw [hlength, hlength]
        exact Nat.le_of_eq hsize.symm
      have hnone : t.get? key = none := by
        rw [← Option.not_isSome_iff_eq_none, ← Table.mem_keys_iff, ← hperm.mem_iff,
          Table.mem_keys_iff, hkey]
        exact Bool.false_ne_true
      rw [hnone]
      exact .none
  · intro hrel
    have hkeys : ∀ key, key ∈ s.keys ↔ key ∈ t.keys := by
      intro key
      rw [Table.mem_keys_iff, Table.mem_keys_iff]
      rcases Related.none_or_some (hrel key) with ⟨hs, ht⟩ | ⟨v, w, hs, ht, -⟩ <;> simp [hs, ht]
    refine ⟨?_, fun e he => ?_⟩
    · -- the sizes are equal, for each document has the keys of the other
      rw [← hlength, ← hlength]
      exact ((List.perm_ext_iff_of_nodup hs ht).mpr hkeys).length_eq
    · -- an entry of the first is found under its key, and so is its partner
      have hfound := hrel e.1
      rw [(Table.get?_eq_some_iff hs).mpr he] at hfound
      exact Related.exists_of_some hfound

/-! ### Every level -/

namespace Json.WellFormed

variable {u v w : Json} {members : Document} {items : List Json} {key : String}

theorem distinct (h : (Json.object members).WellFormed) : members.keys.Nodup := by
  cases h with
  | scalar _ notObject => cases notObject
  | object distinct _ => exact distinct

theorem of_mem (h : (Json.array items).WellFormed) (hv : v ∈ items) : v.WellFormed := by
  cases h with
  | scalar notArray _ => cases notArray
  | array inside => exact inside v hv

theorem of_get? (h : (Json.object members).WellFormed) (hv : members.get? key = some v) :
    v.WellFormed := by
  have hmem := (Table.get?_eq_some_iff h.distinct).mp hv
  cases h with
  | scalar _ notObject => cases notObject
  | object _ inside => exact inside _ hmem

/-- A value equals itself. -/
theorem same_refl (h : v.WellFormed) : v.same v = true := by
  -- by what the value is made of, as its objects have distinct keys at every depth
  induction h with
  | @scalar v notArray notObject =>
    cases v with
    | array items => cases notArray
    | object members => cases notObject
    | null => exact SameScalar.null.same
    | bool b => exact (SameScalar.bool b).same
    | number x => exact (SameScalar.number rfl).same
    | string s => exact (SameScalar.string s).same
  | array inside ih => exact same_array.mpr (List.forall₂_same.mpr ih)
  | @object members distinct inside ih =>
    refine (Document.same_iff distinct distinct).mpr fun key => ?_
    cases hkey : members.get? key with
    | none => exact .none
    | some v => exact .some (ih _ ((Table.get?_eq_some_iff distinct).mp hkey))

/-- Equality does not depend on the side. -/
theorem same_symm (h : v.WellFormed) (h' : w.WellFormed) (hsame : v.same w = true) :
    w.same v = true := by
  -- again by what the first value is made of, which settles the form of the second
  induction h generalizing w with
  | @scalar v notArray notObject =>
    cases sameScalar_of_same notArray notObject hsame with
    | null => exact SameScalar.null.same
    | bool b => exact (SameScalar.bool b).same
    | number hplace => exact (SameScalar.number hplace.symm).same
    | string s => exact (SameScalar.string s).same
  | array inside ih =>
    obtain ⟨ys, rfl, hrel⟩ := exists_of_same_array hsame
    refine same_array.mpr (Related.forall₂_symm hrel fun v hv w hw hvw => ?_)
    exact ih v hv (h'.of_mem hw) hvw
  | @object members distinct inside ih =>
    obtain ⟨t, rfl, hsame⟩ := exists_of_same_object hsame
    have hrel := (Document.same_iff distinct h'.distinct).mp hsame
    refine (Document.same_iff h'.distinct distinct).mpr fun key => ?_
    refine Related.symm (hrel key) fun v w hv hw hvw => ?_
    exact ih _ ((Table.get?_eq_some_iff distinct).mp hv) (h'.of_get? hw) hvw

/-- What equals the same equals one another. -/
theorem same_trans (hu : u.WellFormed) (hv : v.WellFormed) (hw : w.WellFormed)
    (huv : u.same v = true) (hvw : v.same w = true) : u.same w = true := by
  -- the middle value has the form of the first and hands it on to the last
  induction hu generalizing v w with
  | @scalar u notArray notObject =>
    cases sameScalar_of_same notArray notObject huv with
    | number hplace =>
      cases sameScalar_of_same rfl rfl hvw with
      | number hplace' => exact (SameScalar.number (hplace.trans hplace')).same
    | _ => exact hvw
  | array inside ih =>
    obtain ⟨ys, rfl, hrel⟩ := exists_of_same_array huv
    obtain ⟨zs, rfl, hrel'⟩ := exists_of_same_array hvw
    refine same_array.mpr (Related.forall₂_trans hrel hrel' fun u hu' v hv' w hw' => ?_)
    exact ih u hu' (hv.of_mem hv') (hw.of_mem hw')
  | @object members distinct inside ih =>
    obtain ⟨t, rfl, hst⟩ := exists_of_same_object huv
    obtain ⟨t', rfl, htt'⟩ := exists_of_same_object hvw
    have hrel := (Document.same_iff distinct hv.distinct).mp hst
    have hrel' := (Document.same_iff hv.distinct hw.distinct).mp htt'
    refine (Document.same_iff distinct hw.distinct).mpr fun key => ?_
    refine Related.trans (hrel key) (hrel' key) fun u v w hu' hv' hw' => ?_
    exact ih _ ((Table.get?_eq_some_iff distinct).mp hu') (hv.of_get? hv') (hw.of_get? hw')

end Json.WellFormed

/-- Equal values hold equal texts. -/
theorem Json.string?_of_same {v w : Json} (h : v.same w = true) : v.string? = w.string? := by
  cases v with
  | array items =>
    obtain ⟨ys, rfl, -⟩ := exists_of_same_array h
    rfl
  | object members =>
    obtain ⟨t, rfl, -⟩ := exists_of_same_object h
    rfl
  | _ =>
    cases sameScalar_of_same rfl rfl h
    rfl

/-! ### Documents that agree -/

/-- Two documents with distinct keys are equal. -/
structure Document.Agrees (s t : Document) : Prop where
  distinct_left : s.keys.Nodup
  distinct_right : t.keys.Nodup
  same : s.same t = true

namespace Document.Agrees

variable {s t s' t' : Document} {v w : Json} {es es' : List (String × Json)}

theorem refl (h : (Json.object s).WellFormed) : s.Agrees s := ⟨h.distinct, h.distinct, h.same_refl⟩

theorem get? (h : s.Agrees t) (key : String) :
    Option.Rel (fun v w => v.same w = true) (s.get? key) (t.get? key) :=
  (same_iff h.distinct_left h.distinct_right).mp h.same key

theorem insert (h : s.Agrees t) (key : String) (hvw : v.same w = true) :
    Document.Agrees (s.insert key v) (t.insert key w) := by
  have hs := Table.nodup_keys_insert h.distinct_left key v
  have ht := Table.nodup_keys_insert h.distinct_right key w
  refine ⟨hs, ht, (same_iff hs ht).mpr fun other => ?_⟩
  rw [Table.get?_insert, Table.get?_insert]
  split
  · exact .some hvw
  · exact h.get? other

theorem insertAll (h : s.Agrees t) (h' : s'.Agrees t') :
    Document.Agrees (s.insertAll s'.entries) (t.insertAll t'.entries) := by
  have hs := Table.nodup_keys_insertAll h.distinct_left s'.entries
  have ht := Table.nodup_keys_insertAll h.distinct_right t'.entries
  refine ⟨hs, ht, (same_iff hs ht).mpr fun key => ?_⟩
  rw [Table.get?_insertAll s h'.distinct_left, Table.get?_insertAll t h'.distinct_right]
  exact Related.or (h'.get? key) (h.get? key)

/-- Members with the same keys in the same order. -/
theorem of_forall₂ (hdistinct : (es.map Prod.fst).Nodup)
    (h : List.Forall₂ (fun e e' => e.1 = e'.1 ∧ e.2.same e'.2 = true) es es') :
    Document.Agrees ⟨es⟩ ⟨es'⟩ := by
  have hkeys : es.map Prod.fst = es'.map Prod.fst := by
    rw [← List.forall₂_eq_eq_eq, List.forall₂_map_left_iff, List.forall₂_map_right_iff]
    exact h.imp fun _ _ => And.left
  have hs : (⟨es⟩ : Document).keys.Nodup := hdistinct
  have ht : (⟨es'⟩ : Document).keys.Nodup := by
    change (es'.map Prod.fst).Nodup
    rwa [← hkeys]
  refine ⟨hs, ht, (same_iff hs ht).mpr fun key => ?_⟩
  exact Related.lookup h key

end Document.Agrees

end SearchIndex
