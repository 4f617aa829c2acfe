import SearchIndex.Call

/-!
# Calls that write only when they succeed

A change is a function from states that has a new state as its result, or an error. A call
*performs* a change if it succeeds with the new state, and fails with the error and the old
state (`Call.Performs`). Of a call that is written step by step this has to be shown: it says
that nothing is written before the last check. What is known of the change is then known of
the call, and a call that fails has left everything as it was
(`Call.Performs.after_of_error`).

Of a whole session of calls only the accepted ones count (`Call.accepted`): what each accepted
change keeps up, with the changes before it as its history, holds at the end
(`Call.Performs.after_session`).
-/

namespace SearchIndex.Call

variable {σ τ : Type} {c : Call σ Unit} {change : σ → Except Error σ} {s s' : σ} {e : Error}

/-- Answer and state after a change has been tried: the old state counts if there is no new
one. -/
def attempt (r : Except Error σ) (s : σ) : Except Error Unit × σ :=
  match r with
  | .ok s' => (.ok (), s')
  | .error e => (.error e, s)

/-- The call succeeds with the result of the change, or fails as the change does and leaves
the state alone. -/
def Performs (c : Call σ Unit) (change : σ → Except Error σ) : Prop :=
  ∀ s, (c.outcome s, c.after s) = attempt (change s) s

/-- Of calls made one after the other, whatever becomes of them, those that succeed. -/
def accepted {α : Type} (call : α → Call σ Unit) : List α → σ → List α
  | [], _ => []
  | a :: rest, s =>
    match (call a).outcome s with
    | .ok _ => a :: accepted call rest ((call a).after s)
    | .error _ => accepted call rest ((call a).after s)

namespace Performs

/-- If the change has a result, the call answers and the result is the new state. -/
theorem of_ok (h : c.Performs change) (hs : change s = .ok s') :
    c.outcome s = .ok () ∧ c.after s = s' := by
  have hboth := h s
  rw [hs] at hboth
  exact Prod.mk.inj hboth

/-- If the change is refused, the call answers with the error and the state is the old one. -/
theorem of_error (h : c.Performs change) (hs : change s = .error e) :
    c.outcome s = .error e ∧ c.after s = s := by
  have hboth := h s
  rw [hs] at hboth
  exact Prod.mk.inj hboth

/-- A call fails exactly as its change does. -/
theorem outcome_eq_error_iff (h : c.Performs change) :
    c.outcome s = .error e ↔ change s = .error e := by
  cases hs : change s with
  | ok s' => simp [(h.of_ok hs).1]
  | error e' => simp [(h.of_error hs).1]

/-- A call succeeds exactly if its change has a result. -/
theorem outcome_eq_ok_iff (h : c.Performs change) :
    c.outcome s = .ok () ↔ ∃ s', change s = .ok s' := by
  cases hs : change s with
  | ok s' => simp [(h.of_ok hs).1]
  | error e => simp [(h.of_error hs).1]

/-- **A call that fails has changed nothing.** -/
theorem after_of_error (h : c.Performs change) (hc : c.outcome s = .error e) : c.after s = s :=
  (h.of_error (h.outcome_eq_error_iff.mp hc)).2

/-- The state that a call leaves is the old one or the result of the change. -/
theorem after_eq (h : c.Performs change) : c.after s = s ∨ change s = .ok (c.after s) := by
  -- the result has been written, or there is none and nothing has
  cases hs : change s with
  | ok s' => exact Or.inr (congrArg Except.ok (h.of_ok hs).2.symm)
  | error e => exact Or.inl (h.of_error hs).2

/-- **What accepted changes keep up holds after a session.** The property may speak of the
changes that have been accepted so far. -/
theorem after_session {α : Type} {call : α → Call σ Unit} {change : α → σ → Except Error σ}
    (h : ∀ a, (call a).Performs (change a)) {P : List α → σ → Prop}
    (step : ∀ done s a s', P done s → change a s = .ok s' → P (done ++ [a]) s')
    (calls : List α) {done : List α} {s : σ} (start : P done s) :
    P (done ++ accepted call calls s) (afterAll (calls.map call) s) := by
  induction calls generalizing done s with
  | nil => rwa [accepted, List.append_nil]
  | cons a rest ih =>
    show P _ (afterAll (rest.map call) ((call a).after s))
    unfold accepted
    cases hs : change a s with
    | ok s' =>
      -- the call becomes part of the history of the others
      obtain ⟨hok, hafter⟩ := (h a).of_ok hs
      rw [hok, hafter]
      have hrest := ih (step done s a s' start hs)
      rwa [List.append_assoc] at hrest
    | error e =>
      -- a call that is refused leaves the history and the state to the others
      obtain ⟨herror, hafter⟩ := (h a).of_error hs
      rw [herror, hafter]
      exact ih start

/-- Made on a part of a state, the call tries the change of the part. -/
theorem onPart (h : c.Performs change) (part : σ) (whole : σ → τ) :
    ((c.onPart part whole).outcome (whole part), (c.onPart part whole).after (whole part)) =
      attempt ((change part).map whole) (whole part) := by
  change (c.outcome part, whole (c.after part)) = _
  -- what the part becomes is put back into the whole
  cases hs : change part with
  | ok s' =>
    obtain ⟨hok, hafter⟩ := h.of_ok hs
    rw [hok, hafter]
    rfl
  | error e =>
    -- nothing becomes of the part, so the whole is as before
    obtain ⟨herror, hafter⟩ := h.of_error hs
    rw [herror, hafter]
    rfl

end Performs

end SearchIndex.Call
