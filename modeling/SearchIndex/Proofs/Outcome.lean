import SearchIndex.Error

/-!
# Outcomes

What can be said of an `Except Error α` without knowing how it came about: when a chain of
steps succeeds (`Outcome.bind_eq_ok_iff`, `Outcome.map_eq_ok_iff`), and which error it ends
with (`Outcome.error?`).
-/

namespace SearchIndex.Outcome

variable {α β γ : Type}

/-- A chain of two steps succeeds if the first does, and the second does on its result. -/
theorem bind_eq_ok_iff {r : Except Error α} {f : α → Except Error β} {b : β} :
    r.bind f = .ok b ↔ ∃ a, r = .ok a ∧ f a = .ok b := by
  cases r <;> simp [Except.bind]

theorem map_eq_ok_iff {r : Except Error α} {f : α → β} {b : β} :
    r.map f = .ok b ↔ ∃ a, r = .ok a ∧ f a = b := by
  cases r <;> simp [Except.map]

theorem toOption_eq_some_iff {r : Except Error α} {a : α} : r.toOption = some a ↔ r = .ok a := by
  cases r <;> simp [Except.toOption]

/-- Rewording the error does not touch a result. -/
theorem mapError_eq_ok_iff {ε ε' : Type} {r : Except ε α} {f : ε → ε'} {a : α} :
    r.mapError f = .ok a ↔ r = .ok a := by
  cases r with
  | ok b =>
    show Except.ok b = Except.ok a ↔ _
    simp only [Except.ok.injEq]
  | error e => exact ⟨nofun, nofun⟩

theorem bind_map (r : Except Error α) (f : α → β) (g : β → Except Error γ) :
    (r.map f).bind g = r.bind (fun a => g (f a)) := by
  cases r <;> rfl

/-- The error of an outcome, if it is one. -/
def error? : Except Error α → Option Error
  | .ok _ => none
  | .error e => some e

@[simp] theorem error?_ok (a : α) : error? (.ok a) = none := rfl

@[simp] theorem error?_error (e : Error) : error? (.error e : Except Error α) = some e := rfl

theorem error?_eq_some_iff {r : Except Error α} {e : Error} :
    error? r = some e ↔ r = .error e := by
  cases r <;> simp

@[simp] theorem error?_map (f : α → β) (r : Except Error α) : error? (r.map f) = error? r := by
  cases r <;> rfl

/-- Of two outcomes that are both needed, the first error counts. -/
theorem error?_bind_map (r : Except Error α) (r' : Except Error β) (f : α → β → γ) :
    error? (r.bind fun a => r'.map (f a)) = (error? r).or (error? r') := by
  cases r with
  | error e => rfl
  | ok a => exact error?_map (f a) r'

end SearchIndex.Outcome
