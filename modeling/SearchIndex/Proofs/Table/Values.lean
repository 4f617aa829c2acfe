import SearchIndex.Table

/-!
# Changing the values of a table

`Table.mapValues` changes every value in a way that may depend on its key, and leaves keys
and their order alone. Every operation on tables goes on as if nothing had been changed:
what is written is changed as well, and what is taken out has been changed before.
-/

namespace SearchIndex.Table

variable {α β : Type} {f : String → α → β}

/-- Applies to every value the function that belongs to its key. -/
def mapValues (f : String → α → β) (t : Table α) : Table β :=
  ⟨t.entries.map (fun e => (e.1, f e.1 e.2))⟩

@[simp] theorem keys_mapValues (f : String → α → β) (t : Table α) :
    (t.mapValues f).keys = t.keys := by
  simp [keys, mapValues, Function.comp_def]

/-- Where no value is changed the table is the same. -/
theorem mapValues_eq_self {f : String → α → α} {t : Table α}
    (h : ∀ e ∈ t.entries, f e.1 e.2 = e.2) : t.mapValues f = t := by
  obtain ⟨entries⟩ := t
  unfold mapValues
  rw [mk.injEq]
  calc entries.map (fun e => (e.1, f e.1 e.2))
    _ = entries.map id := List.map_congr_left fun e he => Prod.ext rfl (h e he)
    _ = entries := List.map_id entries

theorem mapValues_mapValues {γ : Type} (f : String → α → β) (g : String → β → γ) (t : Table α) :
    (t.mapValues f).mapValues g = t.mapValues fun key value => g key (f key value) := by
  unfold mapValues
  rw [mk.injEq, List.map_map]
  rfl

/-- A look-up finds the changed value of what it would have found. -/
theorem get?_mapValues (f : String → α → β) (t : Table α) (key : String) :
    (t.mapValues f).get? key = (t.get? key).map (f key) := by
  obtain ⟨entries⟩ := t
  simp only [get?, mapValues]
  induction entries with
  | nil => rfl
  | cons e rest ih =>
    rw [List.map_cons, List.lookup_cons, List.lookup_cons]
    cases h : key == e.1 with
    | true =>
      -- the function is that of the key, which is the one looked up
      rw [eq_of_beq h]
      rfl
    | false => exact ih

/-- What is written into a changed table is changed as well. -/
theorem insert_mapValues (f : String → α → β) (t : Table α) (key : String) (value : α) :
    (t.insert key value).mapValues f = (t.mapValues f).insert key (f key value) := by
  obtain ⟨entries⟩ := t
  simp only [mapValues, insert, mk.injEq]
  induction entries with
  | nil => rfl
  | cons e rest ih =>
    by_cases h : e.1 = key
    · simp [insertEntry, h]
    · simp [insertEntry, h, ih]

theorem swapErase_mapValues (f : String → α → β) (t : Table α) (key : String) :
    (t.swapErase key).mapValues f = (t.mapValues f).swapErase key := by
  obtain ⟨entries⟩ := t
  simp only [mapValues, swapErase, mk.injEq]
  induction entries with
  | nil => rfl
  | cons e rest ih =>
    by_cases h : e.1 = key
    · -- the last entry is moved, and it is the same one before and after the change
      simp only [swapEraseEntry, h, if_true, List.map_cons, List.getLast?_map]
      cases rest.getLast? with
      | none => rfl
      | some last => simp [List.map_dropLast]
    · simp [swapEraseEntry, h, ih]

end SearchIndex.Table
