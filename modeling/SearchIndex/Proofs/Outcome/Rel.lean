import SearchIndex.Proofs.Outcome.Traversal

/-!
# Outcomes that correspond

Two computations that differ in something that should not count are compared by their outcomes:
either both fail, and with the same error, or both succeed and their results are related
(`Outcome.Rel`).
-/

namespace SearchIndex.Outcome

variable {ε ε' α β γ δ : Type} {R : α → β → Prop}

/-- Both fail with one error, or both succeed with related results. -/
inductive Rel (R : α → β → Prop) : Except ε α → Except ε β → Prop where
  | error (e : ε) : Rel R (.error e) (.error e)
  | ok {a : α} {b : β} (h : R a b) : Rel R (.ok a) (.ok b)

namespace Rel

/-- If the second succeeds, so does the first. -/
theorem exists_of_ok {r : Except ε α} {b : β} (h : Rel R r (.ok b)) :
    ∃ a, r = .ok a ∧ R a b := by
  cases h with
  | ok h => exact ⟨_, rfl, h⟩

/-- If the first succeeds, so does the second. -/
theorem exists_of_ok_left {a : α} {r : Except ε β} (h : Rel R (.ok a) r) :
    ∃ b, r = .ok b ∧ R a b := by
  cases h with
  | ok h => exact ⟨_, rfl, h⟩

/-- Values that must be there, and are related if they are. -/
theorem require {x : Option α} {y : Option β} (e : Error) (h : Option.Rel R x y) :
    Rel R (require e x) (require e y) := by
  cases h with
  | none => exact .error e
  | some hab => exact .ok hab

/-- Both errors are reworded in the same way. -/
theorem mapError {r : Except ε α} {r' : Except ε β} (h : Rel R r r') (f : ε → ε') :
    Rel R (r.mapError f) (r'.mapError f) := by
  cases h with
  | error e => exact .error (f e)
  | ok hab => exact .ok hab

/-- A step that succeeds with related results on related ones. -/
theorem map {S : γ → δ → Prop} {r : Except ε α} {r' : Except ε β} {f : α → γ} {g : β → δ}
    (h : Rel R r r') (hfg : ∀ a b, R a b → S (f a) (g b)) : Rel S (r.map f) (r'.map g) := by
  cases h with
  | error e => exact .error e
  | ok hab => exact .ok (hfg _ _ hab)

/-- A step whose outcomes correspond on related results. -/
theorem bind {S : γ → δ → Prop} {r : Except ε α} {r' : Except ε β}
    {f : α → Except ε γ} {g : β → Except ε δ} (h : Rel R r r')
    (hfg : ∀ a b, R a b → Rel S (f a) (g b)) : Rel S (r.bind f) (r'.bind g) := by
  cases h with
  | error e => exact .error e
  | ok hab => exact hfg _ _ hab

/-- Results that are related are related in any weaker way. -/
theorem imp {S : α → β → Prop} {r : Except ε α} {r' : Except ε β} (h : Rel R r r')
    (hRS : ∀ a b, R a b → S a b) : Rel S r r' := by
  cases h with
  | error e => exact .error e
  | ok hab => exact .ok (hRS _ _ hab)

end Rel

end SearchIndex.Outcome
