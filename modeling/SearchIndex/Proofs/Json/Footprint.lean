import SearchIndex.Json
import SearchIndex.Proofs.Related
import SearchIndex.Proofs.Table.Order
import Mathlib.Logic.Relation

/-!
# What is read of a value

A decoder rarely reads all of the value that it is given. Its `Footprint` lists what it
reads, level by level, and two values agree on it (`Footprint.Agree`) if they have that in
common: the same of the keys read are present, with values that agree in turn.

What agreement allows is best seen from single changes (`Footprint.Edit`): at any depth, keys
that are not read may be written or taken out, and the members of an object may change
places. `Footprint.Edit.agree` says that every such change is allowed, and
`Footprint.eq_of_edits` that any number of them is.

A key may be listed twice, with two footprints for its value; values then agree if they do
on both.
-/

namespace SearchIndex

/-- Whether a value is neither an array nor an object. -/
def Json.isScalar : Json → Bool
  | .array _ => false
  | .object _ => false
  | _ => true

/-- What is read of a value. -/
inductive Footprint where
  /-- All of it. -/
  | whole
  /-- All of it if it is neither an array nor an object, and nothing else. -/
  | scalar
  /-- The items, if it is an array. -/
  | items (each : Footprint)
  /-- The members under some keys, if it is an object. -/
  | members (keys : List (String × Footprint))
  /-- All of it, unless it is an object, of which only this much is read. -/
  | payload (inside : Footprint)

namespace Footprint

mutual

/-- Two values have in common what is read of them. -/
def Agree : Footprint → Json → Json → Prop
  | whole, v, w => v = w
  | scalar, v, w => v = w ∨ (v.isScalar = false ∧ w.isScalar = false)
  | items each, v, w => Option.Rel (List.Forall₂ each.Agree) v.items? w.items?
  | members keys, v, w => Option.Rel (AgreeOn keys) v.members? w.members?
  | payload inside, v, w =>
    v = w ∨ (v.members?.isSome ∧ w.members?.isSome ∧ inside.Agree v w)

/-- Two documents have the same of some keys, with values that agree. -/
def AgreeOn : List (String × Footprint) → Document → Document → Prop
  | [], _, _ => True
  | (key, r) :: rest, d, d' =>
    Option.Rel r.Agree (d.get? key) (d'.get? key) ∧ AgreeOn rest d d'

end

variable {r : Footprint} {keys : List (String × Footprint)} {v w : Json} {d d' : Document}

/-- Documents agree on keys if they do on each of them. -/
theorem agreeOn_iff : AgreeOn keys d d' ↔
    ∀ key r, (key, r) ∈ keys → Option.Rel r.Agree (d.get? key) (d'.get? key) := by
  induction keys with
  | nil => simp [AgreeOn]
  | cons k rest ih =>
    obtain ⟨key, r⟩ := k
    rw [AgreeOn, ih]
    constructor
    · rintro ⟨hkey, hrest⟩ key' r' hmem
      -- the first key, or one of the others
      rcases List.mem_cons.mp hmem with heq | hmem
      · cases heq
        exact hkey
      · exact hrest key' r' hmem
    · intro h
      exact ⟨h key r List.mem_cons_self,
        fun key' r' hmem => h key' r' (List.mem_cons_of_mem _ hmem)⟩

theorem agreeOn_append {others : List (String × Footprint)} :
    AgreeOn (keys ++ others) d d' ↔ AgreeOn keys d d' ∧ AgreeOn others d d' := by
  simp only [agreeOn_iff, List.mem_append, or_imp, forall_and]

/-! ### A value agrees with itself -/

mutual

theorem agree_refl : ∀ (r : Footprint) (v : Json), r.Agree v v
  | whole, _ => rfl
  | scalar, _ => Or.inl rfl
  | items each, v =>
    Related.refl (fun _ => List.forall₂_same.mpr fun x _ => agree_refl each x) v.items?
  | members keys, v => Related.refl (agreeOn_refl keys) v.members?
  | payload _, _ => Or.inl rfl

theorem agreeOn_refl : ∀ (keys : List (String × Footprint)) (d : Document), AgreeOn keys d d
  | [], _ => trivial
  | (key, r) :: rest, d => ⟨Related.refl (agree_refl r) (d.get? key), agreeOn_refl rest d⟩

end

/-! ### What is read in common -/

/-- A member that is read is common to values that agree. -/
theorem Agree.member? {key : String} (h : (members keys).Agree v w) (hkey : (key, r) ∈ keys) :
    Option.Rel r.Agree (v.member? key) (w.member? key) :=
  Related.bind h fun _ _ hd => agreeOn_iff.mp hd key r hkey

theorem Agree.bind_items? {each : Footprint} {x y : Option Json}
    (h : Option.Rel (items each).Agree x y) :
    Option.Rel (List.Forall₂ each.Agree) (x.bind Json.items?) (y.bind Json.items?) :=
  Related.bind h fun _ _ hvw => hvw

theorem Agree.bind_members? {x y : Option Json} (h : Option.Rel (members keys).Agree x y) :
    Option.Rel (AgreeOn keys) (x.bind Json.members?) (y.bind Json.members?) :=
  Related.bind h fun _ _ hvw => hvw

/-- What is made of neither arrays nor objects is the same for values that agree. -/
theorem Agree.bind_eq {α : Type} {x y : Option Json} (h : Option.Rel scalar.Agree x y)
    {f : Json → Option α} (harray : ∀ xs, f (.array xs) = none)
    (hobject : ∀ d, f (.object d) = none) : x.bind f = y.bind f := by
  -- a value of a kind that is not read leaves nothing
  have hnone : ∀ v : Json, v.isScalar = false → f v = none := by
    intro v hv
    cases v with
    | array xs => exact harray xs
    | object d => exact hobject d
    | _ => cases hv
  cases h with
  | none => rfl
  | some hvw =>
    -- equal values, or two that leave nothing
    rcases hvw with rfl | ⟨hv, hw⟩
    · rfl
    · exact (hnone _ hv).trans (hnone _ hw).symm

theorem eq_of_rel_whole {x y : Option Json} (h : Option.Rel whole.Agree x y) : x = y := by
  cases h with
  | none => rfl
  | some hvw => exact congrArg some hvw

/-! ### Single changes -/

/-- Whether anything is read of a value of this kind. -/
def reads : Footprint → Json → Bool
  | scalar, v => v.isScalar
  | items _, v => v.items?.isSome
  | members _, v => v.members?.isSome
  | _, _ => true

/-- One change that a footprint does not notice, at any depth. -/
inductive Edit : Footprint → Json → Json → Prop where
  /-- A key that is not read is added, or its value changed. -/
  | write {keys : List (String × Footprint)} {d : Document} {key : String} {value : Json}
      (unread : key ∉ keys.map Prod.fst) :
      Edit (members keys) (.object d) (.object (d.insert key value))
  /-- A key that is not read is deleted. -/
  | erase {keys : List (String × Footprint)} {d : Document} {key : String}
      (unread : key ∉ keys.map Prod.fst) :
      Edit (members keys) (.object d) (.object (d.erase key))
  /-- The members of an object, each with a key of its own, change places. -/
  | reorder {keys : List (String × Footprint)} {d d' : Document} (distinct : d.keys.Nodup)
      (permuted : d.entries.Perm d'.entries) : Edit (members keys) (.object d) (.object d')
  /-- A change inside the value of a key, which no footprint for the key notices. -/
  | member {keys : List (String × Footprint)} {d : Document} {key : String} {v w : Json}
      (present : d.get? key = some v) (inside : ∀ r, (key, r) ∈ keys → Edit r v w) :
      Edit (members keys) (.object d) (.object (d.insert key w))
  /-- A change inside an item of an array. -/
  | item {each : Footprint} {before after : List Json} {v w : Json} (inside : Edit each v w) :
      Edit (items each) (.array (before ++ v :: after)) (.array (before ++ w :: after))
  /-- A change inside an object that is not read as a whole. -/
  | payload {inside : Footprint} {d d' : Document} (edit : Edit inside (.object d) (.object d')) :
      Edit (payload inside) (.object d) (.object d')
  /-- Any change of a value of a kind of which nothing is read. -/
  | unread {r : Footprint} {v w : Json} (before : r.reads v = false) (after : r.reads w = false) :
      Edit r v w

/-- Where nothing is read of a value, it may be any other of which nothing is read. -/
theorem agree_of_not_reads (hv : r.reads v = false) (hw : r.reads w = false) : r.Agree v w := by
  cases r with
  | scalar => exact Or.inr ⟨hv, hw⟩
  | items each => exact Related.of_isSome_eq_false hv hw
  | members keys => exact Related.of_isSome_eq_false hv hw
  | whole => cases hv
  | payload inside => cases hv

/-- A change of other keys only. -/
theorem agree_of_get?_eq (h : ∀ key ∈ keys.map Prod.fst, d'.get? key = d.get? key) :
    (members keys).Agree (.object d) (.object d') := by
  refine .some (agreeOn_iff.mpr fun key r hkey => ?_)
  rw [h key (List.mem_map_of_mem hkey)]
  exact Related.refl (agree_refl r) (d.get? key)

/-- **A change that is not noticed leaves values that agree.** -/
theorem Edit.agree (h : r.Edit v w) : r.Agree v w := by
  -- one case for every kind of change, with the changes inside by induction
  induction h with
  | write unread =>
    refine agree_of_get?_eq fun key hkey => ?_
    rw [Table.get?_insert, if_neg (ne_of_mem_of_not_mem hkey unread)]
  | erase unread =>
    exact agree_of_get?_eq fun key hkey =>
      Table.get?_erase_of_ne _ (ne_of_mem_of_not_mem hkey unread)
  | reorder distinct permuted =>
    exact agree_of_get?_eq fun key _ => Table.get?_of_perm distinct permuted key
  | @member keys d key v w present _ ih =>
    -- of the other keys nothing has changed
    refine .some (agreeOn_iff.mpr fun key' r hkey' => ?_)
    rw [Table.get?_insert]
    by_cases heq : key' = key
    · subst heq
      rw [if_pos rfl, present]
      exact .some (ih r hkey')
    · rw [if_neg heq]
      exact Related.refl (agree_refl r) (d.get? key')
  | @item each before after v w _ ih =>
    -- the items before and behind have stayed
    have hsame : ∀ xs : List Json, List.Forall₂ each.Agree xs xs :=
      fun xs => List.forall₂_same.mpr fun x _ => agree_refl each x
    exact .some (List.rel_append (hsame before) (.cons ih (hsame after)))
  | payload _ ih => exact Or.inr ⟨rfl, rfl, ih⟩
  | unread hv hw => exact agree_of_not_reads hv hw

/-- What only depends on the footprint stays over any number of changes. -/
theorem eq_of_edits {α : Type} {f : Json → α} (hf : ∀ v w, r.Agree v w → f v = f w)
    (h : Relation.ReflTransGen r.Edit v w) : f v = f w := by
  induction h with
  | refl => rfl
  | tail _ hedit ih => exact ih.trans (hf _ _ hedit.agree)

end Footprint

end SearchIndex
