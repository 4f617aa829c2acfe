import Mathlib.Data.List.Forall2

/-!
# Related wherever they are

Two runs are compared place by place: an optional value with an optional value, which must
both be there or both be missing (`Option.Rel`), and a list with a list of the same length
(`List.Forall₂`). The lemmas here carry a relation through a further step
(`Related.bind`) and to the elements of lists (`Related.getElem?`, `Related.find?`), turn it
round, and put two together.
-/

namespace SearchIndex.Related

variable {α β γ δ : Type} {R : α → β → Prop} {S : γ → δ → Prop}

/-! ### Optional values -/

/-- A further step on related values, with related outcomes wherever they are, leads on. -/
theorem bind {x : Option α} {y : Option β} {f : α → Option γ} {g : β → Option δ}
    (h : Option.Rel R x y) (hfg : ∀ a b, R a b → Option.Rel S (f a) (g b)) :
    Option.Rel S (x.bind f) (y.bind g) := by
  cases h with
  | none => exact .none
  | some hab => exact hfg _ _ hab

/-- What is related is related in any weaker way. -/
theorem imp {T : α → β → Prop} {x : Option α} {y : Option β} (h : Option.Rel R x y)
    (hRT : ∀ a b, R a b → T a b) : Option.Rel T x y := by
  cases h with
  | none => exact .none
  | some hab => exact .some (hRT _ _ hab)

/-- A value is related to itself wherever a relation is reflexive. -/
theorem refl {R : α → α → Prop} (h : ∀ a, R a a) (x : Option α) : Option.Rel R x x := by
  cases x with
  | none => exact .none
  | some a => exact .some (h a)

/-- Two missing values are related. -/
theorem of_isSome_eq_false {x : Option α} {y : Option β} (hx : x.isSome = false)
    (hy : y.isSome = false) : Option.Rel R x y := by
  cases x with
  | some a => cases hx
  | none =>
    cases y with
    | some b => cases hy
    | none => exact .none

/-- Related values are both missing, or both there. -/
theorem none_or_some {x : Option α} {y : Option β} (h : Option.Rel R x y) :
    (x = none ∧ y = none) ∨ ∃ a b, x = some a ∧ y = some b ∧ R a b := by
  cases h with
  | none => exact Or.inl ⟨rfl, rfl⟩
  | some hab => exact Or.inr ⟨_, _, rfl, rfl, hab⟩

/-- A value that is there is related to one that is there. -/
theorem exists_of_some {a : α} {y : Option β} (h : Option.Rel R (some a) y) :
    ∃ b, y = some b ∧ R a b := by
  cases h with
  | some hab => exact ⟨_, rfl, hab⟩

/-- Either of two values, the first of them if both are there. -/
theorem or {x x' : Option α} {y y' : Option β} (h : Option.Rel R x y) (h' : Option.Rel R x' y') :
    Option.Rel R (x.or x') (y.or y') := by
  cases h with
  | none => exact h'
  | some hab => exact .some hab

/-- The relation may be turned round, with what is known of the values at hand. -/
theorem symm {T : β → α → Prop} {x : Option α} {y : Option β} (h : Option.Rel R x y)
    (hRT : ∀ a b, x = some a → y = some b → R a b → T b a) : Option.Rel T y x := by
  cases h with
  | none => exact .none
  | some hab => exact .some (hRT _ _ rfl rfl hab)

/-- Two relations with a common middle make one. -/
theorem trans {Q : β → γ → Prop} {T : α → γ → Prop} {x : Option α} {y : Option β} {z : Option γ}
    (h : Option.Rel R x y) (h' : Option.Rel Q y z)
    (hT : ∀ a b c, x = some a → y = some b → z = some c → R a b → Q b c → T a c) :
    Option.Rel T x z := by
  cases h with
  | none =>
    cases h' with
    | none => exact .none
  | some hab =>
    -- all three are there, and the two relations meet in the middle
    cases h' with
    | some hbc => exact .some (hT _ _ _ rfl rfl rfl hab hbc)

/-! ### Lists -/

/-- What follows for the elements of the two lists follows for the lists. -/
theorem forall₂_imp {T : α → β → Prop} {xs : List α} {ys : List β} (h : List.Forall₂ R xs ys)
    (hRT : ∀ x ∈ xs, ∀ y ∈ ys, R x y → T x y) : List.Forall₂ T xs ys := by
  induction h with
  | nil => exact .nil
  | cons hxy _ ih =>
    -- the heads are elements of the lists, and the rest of the lists has no other elements
    refine .cons (hRT _ List.mem_cons_self _ List.mem_cons_self hxy) (ih fun x hx y hy => ?_)
    exact hRT x (List.mem_cons_of_mem _ hx) y (List.mem_cons_of_mem _ hy)

/-- Lists related element by element are related the other way round. -/
theorem forall₂_symm {T : β → α → Prop} {xs : List α} {ys : List β} (h : List.Forall₂ R xs ys)
    (hRT : ∀ x ∈ xs, ∀ y ∈ ys, R x y → T y x) : List.Forall₂ T ys xs :=
  (forall₂_imp h hRT).flip

/-- Lists related element by element to a common list are related to each other. -/
theorem forall₂_trans {Q : β → γ → Prop} {T : α → γ → Prop} {xs : List α} {ys : List β}
    {zs : List γ} (h : List.Forall₂ R xs ys) (h' : List.Forall₂ Q ys zs)
    (hT : ∀ x ∈ xs, ∀ y ∈ ys, ∀ z ∈ zs, R x y → Q y z → T x z) : List.Forall₂ T xs zs := by
  induction h generalizing zs with
  | nil =>
    cases h' with
    | nil => exact .nil
  | cons hxy _ ih =>
    -- all three lists have a first element, and those are related in the middle as well
    cases h' with
    | cons hyz hrest =>
      refine .cons (hT _ List.mem_cons_self _ List.mem_cons_self _ List.mem_cons_self hxy hyz)
        (ih hrest fun x hx y hy z hz => ?_)
      exact hT x (List.mem_cons_of_mem _ hx) y (List.mem_cons_of_mem _ hy) z
        (List.mem_cons_of_mem _ hz)

/-- The first elements with a property that related elements share are related. -/
theorem find? {xs : List α} {ys : List β} {p : α → Bool} {q : β → Bool}
    (h : List.Forall₂ R xs ys) (hpq : ∀ x y, R x y → p x = q y) :
    Option.Rel R (xs.find? p) (ys.find? q) := by
  induction h with
  | nil => exact .none
  | cons hxy _ ih =>
    -- as the first elements are related, the search stops at both or at neither
    rw [List.find?_cons, List.find?_cons, hpq _ _ hxy]
    split
    · exact .some hxy
    · exact ih

/-- What a key finds in two lists with the same keys in the same order is related. -/
theorem lookup {es : List (String × α)} {es' : List (String × β)}
    (h : List.Forall₂ (fun e e' => e.1 = e'.1 ∧ R e.2 e'.2) es es') (key : String) :
    Option.Rel R (es.lookup key) (es'.lookup key) := by
  induction h with
  | nil => exact .none
  | @cons e e' _ _ hee' _ ih =>
    -- both lists have one key at the front
    rw [List.lookup_cons, List.lookup_cons, hee'.1]
    cases key == e'.1 with
    | true => exact .some hee'.2
    | false => exact ih

/-- The elements at one place are related, or there are none. -/
theorem getElem? {xs : List α} {ys : List β} (h : List.Forall₂ R xs ys) (i : Nat) :
    Option.Rel R xs[i]? ys[i]? := by
  induction h generalizing i with
  | nil => exact .none
  | cons hxy _ ih =>
    cases i with
    | zero => exact .some hxy
    | succ i => exact ih i

end SearchIndex.Related
