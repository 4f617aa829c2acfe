import SearchIndex.Table
import Mathlib.Data.List.Nodup

/-!
# Look-ups and the order of entries

Where keys are distinct, a look-up finds exactly the entries (`Table.get?_eq_some_iff`), so
it does not depend on their order (`Table.get?_of_perm`). Taking a key out changes the
look-up of no other key (`Table.get?_erase_of_ne`).
-/

namespace SearchIndex.Table

variable {α : Type} {t t' : Table α} {key other : String}

/-- Where keys are distinct, what is found is what is listed. -/
theorem get?_eq_some_iff (h : t.keys.Nodup) {value : α} :
    t.get? key = some value ↔ (key, value) ∈ t.entries := by
  obtain ⟨entries⟩ := t
  simp only [get?]
  induction entries with
  | nil => simp
  | cons e rest ih =>
    obtain ⟨k, v⟩ := e
    obtain ⟨hnew, hrest⟩ := List.nodup_cons.mp h
    rw [List.lookup_cons, List.mem_cons]
    by_cases hk : key = k
    · subst hk
      -- no later entry has the key
      have hlater : (key, value) ∉ rest := fun hmem =>
        hnew (List.mem_map.mpr ⟨(key, value), hmem, rfl⟩)
      simp [hlater, eq_comm]
    · simp [hk, beq_false_of_ne hk, ih hrest]

/-- **A look-up does not depend on the order of the entries.** -/
theorem get?_of_perm (h : t.keys.Nodup) (hperm : t.entries.Perm t'.entries) (key : String) :
    t'.get? key = t.get? key := by
  have h' : t'.keys.Nodup := (hperm.map Prod.fst).nodup_iff.mp h
  refine Option.ext fun value => ?_
  rw [get?_eq_some_iff h, get?_eq_some_iff h', hperm.mem_iff]

/-- Taking a key out leaves all other keys as they are. -/
theorem get?_erase_of_ne (t : Table α) (h : other ≠ key) :
    (t.erase key).get? other = t.get? other := by
  obtain ⟨entries⟩ := t
  simp only [get?, erase]
  induction entries with
  | nil => rfl
  | cons e rest ih =>
    obtain ⟨k, v⟩ := e
    -- the entry that is taken out has another key than the one looked up
    by_cases hk : k = key
    · subst hk
      rw [List.eraseP_cons_of_pos (by simp), List.lookup_cons, beq_false_of_ne h]
    · rw [List.eraseP_cons_of_neg (by simpa using hk), List.lookup_cons, List.lookup_cons, ih]

end SearchIndex.Table
