import SearchIndex.Query
import SearchIndex.Proofs.Related
import SearchIndex.Proofs.Table
import Mathlib.Data.List.Forall2

/-!
# Documents alike in order

Two requests have the same body when the documents have the same keys in the same order and
equal values under them, at every depth. `Json.alike` decides this. It asks for more than
`Json.same`, which lets the members of an object stand in any order, and knows as little of
numbers: the sorts are told apart and the two zeros are not.

The bodies of requests are mostly objects whose unset members are left out. That nothing is
lost in this way is `Document.ofOptional_alike_iff`: the objects are alike exactly if the
same members are set, to values that are alike. It needs the keys to be distinct, for
otherwise one member could stand in for another that is not set.
-/

namespace SearchIndex

mutual

/-- Equality of values in which the members of an object keep their order. -/
def Json.alike : Json → Json → Bool
  | .null, .null => true
  | .bool a, .bool b => a == b
  | .number a, .number b => a.same b
  | .string a, .string b => a == b
  | .array xs, .array ys => Json.alikeItems xs ys
  | .object ⟨es⟩, .object ⟨es'⟩ => Json.alikeMembers es es'
  | _, _ => false

/-- Equality of items, place by place. -/
def Json.alikeItems : List Json → List Json → Bool
  | [], [] => true
  | x :: xs, y :: ys => x.alike y && Json.alikeItems xs ys
  | _, _ => false

/-- Equality of members, place by place. -/
def Json.alikeMembers : List (String × Json) → List (String × Json) → Bool
  | [], [] => true
  | (k, v) :: rest, (k', v') :: rest' => k == k' && v.alike v' && Json.alikeMembers rest rest'
  | _, _ => false

end

/-- Equality of documents in which the members keep their order. -/
def Document.alike (d d' : Document) : Bool := (Json.object d).alike (.object d')

/-- Members of the same key with values that are alike. -/
def Json.MemberAlike (e e' : String × Json) : Prop := e.1 = e'.1 ∧ e.2.alike e'.2

/-- Values that are both unset, or set to values that are alike. -/
abbrev Json.AlikeIfSet : Option Json → Option Json → Prop := Option.Rel (fun v w => v.alike w)

namespace Json

variable {α : Type}

theorem alikeItems_iff {xs ys : List Json} :
    alikeItems xs ys ↔ List.Forall₂ (fun x y => x.alike y) xs ys := by
  induction xs generalizing ys with
  | nil => cases ys <;> simp [alikeItems]
  | cons x rest ih =>
    cases ys with
    | nil => simp [alikeItems]
    | cons y ys => simp [alikeItems, ih]

theorem alikeMembers_iff {es es' : List (String × Json)} :
    alikeMembers es es' ↔ List.Forall₂ MemberAlike es es' := by
  induction es generalizing es' with
  | nil => cases es' <;> simp [alikeMembers]
  | cons e rest ih =>
    cases es' with
    | nil => simp [alikeMembers]
    | cons e' es' => simp [alikeMembers, MemberAlike, ih]

@[simp] theorem alike_array (xs ys : List Json) :
    (Json.array xs).alike (.array ys) ↔ List.Forall₂ (fun x y => x.alike y) xs ys := by
  rw [alike, alikeItems_iff]

@[simp] theorem alike_object (d d' : Document) :
    (Json.object d).alike (.object d') ↔ d.alike d' := Iff.rfl

@[simp] theorem alike_string (s t : String) : (Json.string s).alike (.string t) ↔ s = t := by
  simp [alike]

@[simp] theorem alike_ofNat (m n : Nat) : (Json.ofNat m).alike (.ofNat n) ↔ m = n := by
  simp only [alike, ofNat, Number.same, beq_iff_eq]
  exact Int.natCast_inj

/-- Finite quantities are alike as values exactly if they are equal as numbers. -/
theorem alike_ofQuantity {x y : Quantity} (hx : x.finite?.isSome) (hy : y.finite?.isSome) :
    (ofQuantity x).alike (ofQuantity y) ↔ x.key? = y.key? := by
  cases x with
  | finite a =>
    cases y with
    | finite b => simp [alike, ofQuantity, Number.same, Quantity.key?]
    | _ => cases hy
  | _ => cases hx

/-- What is written so that it can be read back is alike exactly if it is the same. -/
theorem alikeIfSet_map_iff {f : α → Json} (h : ∀ a b, (f a).alike (f b) ↔ a = b)
    {x y : Option α} : AlikeIfSet (x.map f) (y.map f) ↔ x = y := by
  cases x <;> cases y <;> simp [h]

end Json

namespace Document

theorem alike_iff {d d' : Document} :
    d.alike d' ↔ List.Forall₂ Json.MemberAlike d.entries d'.entries := by
  rw [alike, Json.alike, Json.alikeMembers_iff]

@[simp] theorem alike_nil : alike ⟨[]⟩ ⟨[]⟩ := rfl

@[simp] theorem alike_cons {key key' : String} {value value' : Json}
    {rest rest' : List (String × Json)} :
    alike ⟨(key, value) :: rest⟩ ⟨(key', value') :: rest'⟩ ↔
      (key = key' ∧ value.alike value') ∧ alike ⟨rest⟩ ⟨rest'⟩ := by
  simp [alike_iff, Json.MemberAlike]

@[simp] theorem alike_wrap {key key' : String} {value value' : Json} :
    (Query.wrap key value).alike (Query.wrap key' value') ↔ key = key' ∧ value.alike value' := by
  simp [Query.wrap]

theorem entries_ofOptional_unset (key : String) (rest : List (String × Option Json)) :
    (ofOptional ((key, none) :: rest)).entries = (ofOptional rest).entries := rfl

theorem entries_ofOptional_set (key : String) (value : Json)
    (rest : List (String × Option Json)) :
    (ofOptional ((key, some value) :: rest)).entries =
      (key, value) :: (ofOptional rest).entries := rfl

/-- Only keys of the list are keys of the object. -/
theorem mem_of_mem_keys_ofOptional {members : List (String × Option Json)} {key : String}
    (h : key ∈ (ofOptional members).keys) : key ∈ members.map Prod.fst := by
  obtain ⟨e, he, rfl⟩ := List.mem_map.mp h
  obtain ⟨m, hm, hset⟩ := List.mem_filterMap.mp he
  obtain ⟨value, -, rfl⟩ := Option.map_eq_some_iff.mp hset
  exact List.mem_map_of_mem hm

/-- **A member of such an object is found under its key** if it is set. -/
theorem get?_ofOptional {members : List (String × Option Json)}
    (distinct : (members.map Prod.fst).Nodup) (key : String) :
    (ofOptional members).get? key = (members.lookup key).join := by
  -- along the members, of which those behind the first have other keys
  induction members with
  | nil => rfl
  | cons m rest ih =>
    obtain ⟨first, value⟩ := m
    obtain ⟨hnew, hdistinct⟩ := List.nodup_cons.mp distinct
    have hrest : (ofOptional rest).entries.lookup key = (rest.lookup key).join := ih hdistinct
    show (ofOptional ((first, value) :: rest)).entries.lookup key = _
    by_cases hkey : key = first
    · subst hkey
      rw [List.lookup_cons_self]
      cases value with
      | none =>
        -- no later member has the key
        have hnone : key ∉ (ofOptional rest).keys := fun h => hnew (mem_of_mem_keys_ofOptional h)
        rw [Table.mem_keys_iff, Option.not_isSome_iff_eq_none] at hnone
        exact hnone
      | some v => exact List.lookup_cons_self
    · have hskip := beq_false_of_ne hkey
      rw [List.lookup_cons, hskip, ← hrest]
      cases value with
      | none => rfl
      | some v =>
        rw [entries_ofOptional_set, List.lookup_cons, hskip]

/-- A member that is set has no partner where its key is not in the list. -/
theorem not_forall₂_ofOptional {members : List (String × Option Json)} {e : String × Json}
    {es : List (String × Json)} (he : e.1 ∉ members.map Prod.fst) :
    ¬ List.Forall₂ (fun e e' : String × Json => e.1 = e'.1) (e :: es)
      (ofOptional members).entries := by
  intro hall
  -- the partner of the member that is set would have its key
  obtain ⟨e', es', hkey, -, hes⟩ := List.forall₂_cons_left_iff.mp hall
  have hmem : e' ∈ (ofOptional members).entries := hes ▸ List.mem_cons_self
  have hkeys : e.1 ∈ (ofOptional members).keys := hkey ▸ List.mem_map_of_mem hmem
  exact he (mem_of_mem_keys_ofOptional hkeys)

/-- **Objects whose unset members are left out** are alike exactly if the same members are
set, to values that are alike. -/
theorem ofOptional_alike_iff {members members' : List (String × Option Json)}
    (keys : members.map Prod.fst = members'.map Prod.fst)
    (distinct : (members.map Prod.fst).Nodup) :
    (ofOptional members).alike (ofOptional members') ↔
      List.Forall₂ (fun m m' => Json.AlikeIfSet m.2 m'.2) members members' := by
  -- member by member, in both lists at once
  induction members generalizing members' with
  | nil =>
    obtain rfl : members' = [] := by simpa using keys.symm
    simp [ofOptional]
  | cons m rest ih =>
    obtain ⟨m', rest', rfl⟩ : ∃ m' rest', members' = m' :: rest' := by
      cases members' with
      | nil => cases keys
      | cons m' rest' => exact ⟨m', rest', rfl⟩
    obtain ⟨key, value⟩ := m
    obtain ⟨key', value'⟩ := m'
    obtain ⟨rfl, hkeys⟩ : key = key' ∧ rest.map Prod.fst = rest'.map Prod.fst := by
      simpa using keys
    obtain ⟨hnew, hdistinct⟩ := List.nodup_cons.mp distinct
    have hrest := ih hkeys hdistinct
    rw [List.forall₂_cons, ← hrest, alike_iff, alike_iff]
    -- the first members decide, unless one is set and the other is not
    cases value with
    | none =>
      cases value' with
      | none =>
        rw [entries_ofOptional_unset, entries_ofOptional_unset]
        exact (and_iff_right .none).symm
      | some v' =>
        rw [entries_ofOptional_unset, entries_ofOptional_set]
        refine iff_of_false (fun h => ?_) (fun h => nomatch h.1)
        exact not_forall₂_ofOptional hnew (h.imp fun e e' he => he.1.symm).flip
    | some v =>
      cases value' with
      | none =>
        rw [entries_ofOptional_unset, entries_ofOptional_set]
        refine iff_of_false (fun h => ?_) (fun h => nomatch h.1)
        have hnew' : key ∉ rest'.map Prod.fst := hkeys ▸ hnew
        exact not_forall₂_ofOptional hnew' (h.imp fun e e' he => he.1)
      | some v' =>
        -- both are set, and the first pairs of the objects decide
        rw [entries_ofOptional_set, entries_ofOptional_set, List.forall₂_cons]
        refine and_congr_left fun _ => ?_
        simp [Json.MemberAlike]

end Document

end SearchIndex
