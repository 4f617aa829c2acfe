import SearchIndex.Proofs.Outcome
import Mathlib.Data.List.Forall2
import Mathlib.Data.List.Perm.Basic

/-!
# Outcomes of a list of steps

A traversal `xs.mapM f` takes the steps of a list in order and stops at the first that
fails. What it comes to is said here without its recursion:

* it succeeds exactly if every step does, with one result for each, in order
  (`Outcome.mapM_eq_ok_iff`, `Outcome.exists_mapM_eq_ok_iff`);
* it fails with the error of a step that only successful ones precede
  (`Outcome.exists_of_mapM_eq_error`, `Outcome.mapM_eq_error_iff`);
* two traversals whose steps agree, or agree up to a map on the results, agree in the same
  way (`Outcome.mapM_eq_mapM`, `Outcome.map_mapM_congr`).
-/

namespace SearchIndex.Outcome

variable {α β γ : Type} {f : α → Except Error β}

/-- A value that must be there, or the error of its absence. -/
def require (e : Error) : Option α → Except Error α
  | none => .error e
  | some a => .ok a

@[simp] theorem require_none (e : Error) : require e (none : Option α) = .error e := rfl

@[simp] theorem require_some (e : Error) (a : α) : require e (some a) = .ok a := rfl

/-- A value that must be there is the one that is there. -/
theorem require_eq_ok_iff {e : Error} {o : Option α} {a : α} :
    require e o = .ok a ↔ o = some a := by
  cases o <;> simp

/-- One step of a traversal, as a chain of two steps. -/
theorem mapM_cons (f : α → Except Error β) (x : α) (rest : List α) :
    (x :: rest).mapM f = (f x).bind (fun y => (rest.mapM f).map (fun ys => y :: ys)) := by
  rw [List.mapM_cons]
  cases f x with
  | error e => rfl
  | ok y => cases rest.mapM f <;> rfl

/-- **A traversal succeeds with the results of its steps.** -/
theorem mapM_eq_ok_iff {xs : List α} {ys : List β} :
    xs.mapM f = .ok ys ↔ List.Forall₂ (fun x y => f x = .ok y) xs ys := by
  induction xs generalizing ys with
  | nil =>
    rw [List.forall₂_nil_left_iff]
    exact ⟨fun h => (Except.ok.inj h).symm, fun h => h ▸ rfl⟩
  | cons x rest ih =>
    rw [mapM_cons, bind_eq_ok_iff, List.forall₂_cons_left_iff]
    constructor
    · -- the first step and those of the rest succeed apart from each other
      rintro ⟨y, hx, h⟩
      obtain ⟨others, hrest, rfl⟩ := map_eq_ok_iff.mp h
      exact ⟨y, others, hx, ih.mp hrest, rfl⟩
    · rintro ⟨y, others, hx, hrest, rfl⟩
      exact ⟨y, hx, map_eq_ok_iff.mpr ⟨others, ih.mpr hrest, rfl⟩⟩

/-- The results are told by two lists that agree: what the steps come to, and the successes. -/
theorem mapM_eq_ok_iff_map_eq {xs : List α} {ys : List β} :
    xs.mapM f = .ok ys ↔ xs.map f = ys.map .ok := by
  rw [mapM_eq_ok_iff, ← List.forall₂_eq_eq_eq, List.forall₂_map_left_iff,
    List.forall₂_map_right_iff]

/-- **A traversal succeeds exactly if all its steps do.** -/
theorem exists_mapM_eq_ok_iff {xs : List α} :
    (∃ ys, xs.mapM f = .ok ys) ↔ ∀ x ∈ xs, ∃ y, f x = .ok y := by
  induction xs with
  | nil => exact ⟨fun _ x hx => absurd hx List.not_mem_nil, fun _ => ⟨[], rfl⟩⟩
  | cons x rest ih =>
    simp only [mapM_cons, bind_eq_ok_iff, map_eq_ok_iff, List.forall_mem_cons, ← ih]
    constructor
    · rintro ⟨-, y, hx, others, hrest, -⟩
      exact ⟨⟨y, hx⟩, others, hrest⟩
    · rintro ⟨⟨y, hx⟩, others, hrest⟩
      exact ⟨y :: others, y, hx, others, hrest, rfl⟩

/-- **In another order a traversal succeeds as well**, with the same results in that order. -/
theorem exists_mapM_of_perm {xs xs' : List α} {ys : List β} (hperm : xs.Perm xs')
    (h : xs.mapM f = .ok ys) : ∃ ys', xs'.mapM f = .ok ys' ∧ ys.Perm ys' := by
  -- the steps of the list, in the order of the other, are related to the results in that order
  obtain ⟨ys', hsteps, hresults⟩ := List.perm_comp_forall₂ hperm.symm (mapM_eq_ok_iff.mp h)
  exact ⟨ys', mapM_eq_ok_iff.mpr hsteps, hresults.symm⟩

/-- A traversal of two lists behind one another is that of the first and that of the second. -/
theorem mapM_append_eq_ok_iff {xs ys : List α} {zs : List β} :
    (xs ++ ys).mapM f = .ok zs ↔
      ∃ bs cs, xs.mapM f = .ok bs ∧ ys.mapM f = .ok cs ∧ zs = bs ++ cs := by
  have happend : (xs ++ ys).mapM f =
      (xs.mapM f).bind (fun bs => (ys.mapM f).map (fun cs => bs ++ cs)) := by
    -- two runs in a row, as one chain
    rw [List.mapM_append]
    cases xs.mapM f with
    | error e => rfl
    | ok bs => cases ys.mapM f <;> rfl
  rw [happend, bind_eq_ok_iff]
  simp only [map_eq_ok_iff, eq_comm (a := zs), exists_and_left]

/-- **A traversal fails with its first failing step.** -/
theorem exists_of_mapM_eq_error {xs : List α} {e : Error} (h : xs.mapM f = .error e) :
    ∃ (i : Nat) (x : α), xs[i]? = some x ∧ f x = .error e ∧
      ∀ (j : Nat) (y : α), j < i → xs[j]? = some y → ∃ z, f y = .ok z := by
  induction xs with
  | nil => cases h
  | cons x rest ih =>
    rw [mapM_cons] at h
    cases hx : f x with
    | error e' =>
      -- nothing stands before the first step
      rw [hx] at h
      obtain rfl : e' = e := Except.error.inj h
      exact ⟨0, x, rfl, hx, fun j y hj => absurd hj (Nat.not_lt_zero j)⟩
    | ok z =>
      have hrest : rest.mapM f = .error e := by
        rw [hx] at h
        change (rest.mapM f).map (fun ys => z :: ys) = .error e at h
        -- the first step is passed, so the rest of the traversal has failed
        cases hr : rest.mapM f with
        | ok ys => rw [hr] at h; cases h
        | error e' => rw [hr] at h; exact h
      obtain ⟨i, y, hy, hfail, hbefore⟩ := ih hrest
      refine ⟨i + 1, y, hy, hfail, fun j y' hj hy' => ?_⟩
      -- a step that stands before the failing one is the first or stands in the rest
      cases j with
      | zero =>
        obtain rfl : x = y' := Option.some.inj hy'
        exact ⟨z, hx⟩
      | succ j => exact hbefore j y' (Nat.lt_of_succ_lt_succ hj) hy'

/-- **A traversal fails with the error of a step exactly if only successful ones precede it.** -/
theorem mapM_eq_error_iff {xs : List α} {e : Error} :
    xs.mapM f = .error e ↔ ∃ before x after, xs = before ++ x :: after ∧
      (∀ y ∈ before, ∃ z, f y = .ok z) ∧ f x = .error e := by
  constructor
  · -- the steps before the failing one are those of the smaller places
    intro h
    obtain ⟨i, x, hx, hfail, hbefore⟩ := exists_of_mapM_eq_error h
    obtain ⟨hi, rfl⟩ := List.getElem?_eq_some_iff.mp hx
    have hsplit : xs = xs.take i ++ xs[i] :: xs.drop (i + 1) := by
      rw [← List.drop_eq_getElem_cons hi, List.take_append_drop]
    refine ⟨xs.take i, xs[i], xs.drop (i + 1), hsplit, ?_, hfail⟩
    intro y hy
    obtain ⟨j, hj, rfl⟩ := List.mem_take_iff_getElem.mp hy
    exact hbefore j _ (by omega) (List.getElem?_eq_getElem _)
  · rintro ⟨before, x, after, rfl, hbefore, hfail⟩
    -- over the steps that succeed, down to the one that does not
    induction before with
    | nil => rw [List.nil_append, mapM_cons, hfail]; rfl
    | cons y before ih =>
      obtain ⟨z, hz⟩ := hbefore y List.mem_cons_self
      rw [List.cons_append, mapM_cons, hz,
        ih fun y' hy' => hbefore y' (List.mem_cons_of_mem y hy')]
      rfl

/-- Traversals of two lists agree where their steps do. -/
theorem mapM_eq_mapM {g : γ → Except Error β} {xs : List α} {ys : List γ}
    (h : List.Forall₂ (fun x y => f x = g y) xs ys) : xs.mapM f = ys.mapM g := by
  induction h with
  | nil => rfl
  | cons hstep _ ih => rw [mapM_cons, mapM_cons, hstep, ih]

/-- Two results that agree up to a map still do when the same is made of both. -/
theorem map_map_congr {r r' : Except Error α} {f : α → γ} {keep : γ → γ} {p : α → α}
    (h : ∀ a, keep (f a) = f (p a)) (hr : r.map p = r'.map p) :
    (r.map f).map keep = (r'.map f).map keep := by
  have hmap : ∀ s : Except Error α, (s.map f).map keep = (s.map p).map f := by
    intro s
    -- said of any outcome, because it is needed of both
    cases s with
    | error e => rfl
    | ok a => exact congrArg Except.ok (h a)
  rw [hmap, hmap, hr]

/-- The same with two results that are both needed. -/
theorem bind_map_congr {r r' : Except Error α} {s s' : Except Error β} {f : α → β → γ}
    {keep : γ → γ} {p : α → α} {q : β → β} (h : ∀ a b, keep (f a b) = f (p a) (q b))
    (hr : r.map p = r'.map p) (hs : s.map q = s'.map q) :
    (r.bind (fun a => s.map (f a))).map keep = (r'.bind (fun a => s'.map (f a))).map keep := by
  have hmap : ∀ (t : Except Error α) (u : Except Error β),
      (t.bind (fun a => u.map (f a))).map keep =
        (t.map p).bind (fun a => (u.map q).map (f a)) := by
    -- said of any two outcomes; the first that fails settles it on both sides
    intro t u
    cases t with
    | error e => rfl
    | ok a =>
      cases u with
      | error e => rfl
      | ok b => exact congrArg Except.ok (h a b)
  rw [hmap, hmap, hr, hs]

/-- Two traversals of one list agree up to a map on the results where their steps do. -/
theorem map_mapM_congr {g : α → Except Error β} {keep : β → β} {xs : List α}
    (h : ∀ x ∈ xs, (f x).map keep = (g x).map keep) :
    (xs.mapM f).map (List.map keep) = (xs.mapM g).map (List.map keep) := by
  induction xs with
  | nil => rfl
  | cons x rest ih =>
    have hx := h x List.mem_cons_self
    have hrest := ih fun y hy => h y (List.mem_cons_of_mem x hy)
    rw [mapM_cons, mapM_cons]
    -- the results of the first step and of the rest agree, and so do the lists made of them
    exact bind_map_congr (fun y ys => List.map_cons) hx hrest

end SearchIndex.Outcome
