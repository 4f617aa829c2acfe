import SearchIndex.Error

/-!
# Calls in place

Drafts and aggregations are changed by calls that write to a state they are given. A call
may fail at any point, and what it has written by then stays written: there is nothing that
would take it back. So a call has two results, its answer or error (`Call.outcome`) and the
state that it leaves behind (`Call.after`), and whether a failed call has changed anything is
a question about the order in which it checks and writes.
-/

namespace SearchIndex

/-- A call on a state. -/
abbrev Call (σ α : Type) := ExceptT Error (StateM σ) α

namespace Call

variable {σ τ α : Type}

/-- What a call answers, or the error it fails with. -/
def outcome (c : Call σ α) (s : σ) : Except Error α := (c.run.run s).1

/-- The state that a call leaves behind, also when it fails. -/
def after (c : Call σ α) (s : σ) : σ := (c.run.run s).2

/-- The state that calls leave behind, one made after the other whatever becomes of it. -/
def afterAll (calls : List (Call σ Unit)) (s : σ) : σ := calls.foldl (fun s c => c.after s) s

/-- A call on a part of a state; `whole` puts the part back into its place. -/
def onPart (c : Call σ α) (part : σ) (whole : σ → τ) : Call τ α :=
  ExceptT.mk fun _ => (c.outcome part, whole (c.after part))

end Call

end SearchIndex
