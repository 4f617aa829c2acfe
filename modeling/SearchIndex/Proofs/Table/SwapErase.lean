import SearchIndex.Proofs.Table
import SearchIndex.Proofs.Table.Order
import SearchIndex.Proofs.Table.Values

/-!
# Taking an entry out and putting it back

`Table.swapErase` moves the last entry into the place of the one that it takes out, so it
changes where other entries stand. It changes nothing else: the entries that are left are those
that `Table.erase` leaves, in another order (`Table.swapErase_perm`).

An entry that is taken out in this way and put back under its key with a new value goes to the
end. What has come of the table as a whole is that one value has been changed in place, up to
the order of the entries (`Table.insert_swapErase_perm`).
-/

namespace SearchIndex.Table

open scoped List

variable {α : Type} {t : Table α} {key : String} {value : α}

/-- **The moved entry changes the order and nothing else.** -/
theorem swapErase_perm (t : Table α) (key : String) :
    (t.swapErase key).entries.Perm (t.erase key).entries := by
  obtain ⟨entries⟩ := t
  unfold swapErase erase
  dsimp only
  induction entries with
  | nil => exact .nil
  | cons e rest ih =>
    obtain ⟨k, v⟩ := e
    by_cases hk : k = key
    · rw [swapEraseEntry, if_pos hk, List.eraseP_cons_of_pos (by simpa using hk)]
      cases hlast : rest.getLast? with
      | none =>
        rw [List.getLast?_eq_none_iff.mp hlast]
      | some last =>
        -- the last entry has been moved in front of those before it
        have hsplit : rest.dropLast ++ [last] = rest :=
          List.dropLast_append_getLast? last hlast
        have hmoved : (last :: rest.dropLast).Perm (rest.dropLast ++ [last]) :=
          (List.perm_append_singleton last rest.dropLast).symm
        rwa [hsplit] at hmoved
    · rw [swapEraseEntry, if_neg hk, List.eraseP_cons_of_neg (by simpa using hk)]
      exact ih.cons (k, v)

/-- A table has the entry that a look-up finds, and those that are left without it. -/
theorem perm_cons_erase (h : t.get? key = some value) :
    t.entries.Perm ((key, value) :: (t.erase key).entries) := by
  obtain ⟨entries⟩ := t
  unfold get? at h
  unfold erase
  dsimp only at h ⊢
  induction entries with
  | nil => cases h
  | cons e rest ih =>
    obtain ⟨k, v⟩ := e
    by_cases hk : k = key
    · -- the entry in front is the one that is found
      subst hk
      rw [List.lookup_cons_self] at h
      rw [List.eraseP_cons_of_pos (by simp), Option.some.inj h]
    · rw [List.lookup_cons, beq_false_of_ne (Ne.symm hk)] at h
      rw [List.eraseP_cons_of_neg (by simpa using hk)]
      exact ((ih h).cons (k, v)).trans (.swap _ _ _)

/-- A key that has been taken out is gone. -/
theorem notMem_keys_erase (h : t.keys.Nodup) (hvalue : t.get? key = some value) :
    key ∉ (t.erase key).keys := by
  have hkeys : t.keys.Perm (key :: (t.erase key).keys) := (perm_cons_erase hvalue).map Prod.fst
  exact (List.nodup_cons.mp (hkeys.nodup_iff.mp h)).1

/-- **Taken out and put back with a new value, an entry has changed its value and its place.**
All others have kept their values. -/
theorem insert_swapErase_perm (h : t.keys.Nodup) (hvalue : t.get? key = some value)
    {f : String → α → α} (hf : ∀ k v, k ≠ key → f k v = v) :
    ((t.swapErase key).insert key (f key value)).entries.Perm (t.mapValues f).entries := by
  have hgone : key ∉ (t.erase key).keys := notMem_keys_erase h hvalue
  have hnew : key ∉ (t.swapErase key).keys := fun hmem =>
    hgone (((swapErase_perm t key).map Prod.fst).mem_iff.mp hmem)
  -- nothing is changed in the entries that are left
  have hrest : (t.erase key).mapValues f = t.erase key :=
    mapValues_eq_self fun e he =>
      hf e.1 e.2 (ne_of_mem_of_not_mem (List.mem_map_of_mem he) hgone)
  calc ((t.swapErase key).insert key (f key value)).entries
    _ = (t.swapErase key).entries ++ [(key, f key value)] := by rw [insert_of_notMem hnew]
    _ ~ (key, f key value) :: (t.swapErase key).entries := List.perm_append_singleton _ _
    _ ~ (key, f key value) :: (t.erase key).entries := (swapErase_perm t key).cons _
    _ = (key, f key value) :: ((t.erase key).mapValues f).entries := by rw [hrest]
    _ ~ (t.mapValues f).entries :=
      ((perm_cons_erase hvalue).map fun e : String × α => (e.1, f e.1 e.2)).symm

end SearchIndex.Table
