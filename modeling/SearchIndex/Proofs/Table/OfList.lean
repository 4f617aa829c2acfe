import SearchIndex.Proofs.Table
import SearchIndex.Proofs.Table.Order

/-!
# Tables built from entries that repeat keys

A list of entries may have a key more than once. In the table that is built from it
(`Table.ofList`) the last entry of a key is the one that counts: `Table.get?_ofList_eq_some_iff`
says so of look-ups and `Table.mem_values_ofList_iff` of the values that the table holds.
-/

namespace SearchIndex.Table

variable {α : Type} {t : Table α} {entries : List (String × α)} {key : String} {value : α}

/-- Writing keeps keys distinct. -/
theorem nodup_keys_insertAll (h : t.keys.Nodup) (entries : List (String × α)) :
    (t.insertAll entries).keys.Nodup := by
  induction entries generalizing t with
  | nil => exact h
  | cons entry rest ih => exact ih (nodup_keys_insert h entry.1 entry.2)

theorem nodup_keys_ofList (entries : List (String × α)) : (ofList entries).keys.Nodup := by
  have hempty : (empty : Table α).keys.Nodup := List.nodup_nil
  exact nodup_keys_insertAll hempty entries

theorem mem_keys_ofList : key ∈ (ofList entries).keys ↔ key ∈ entries.map Prod.fst := by
  rw [ofList, mem_keys_insertAll, keys_empty]
  exact or_iff_right List.not_mem_nil

/-- Entries under distinct keys that are not there yet go to the end as they stand. -/
theorem insertAll_of_nodup {t : Table α} {entries : List (String × α)}
    (h : (t.keys ++ entries.map Prod.fst).Nodup) :
    t.insertAll entries = ⟨t.entries ++ entries⟩ := by
  induction entries generalizing t with
  | nil => exact congrArg Table.mk (List.append_nil t.entries).symm
  | cons entry rest ih =>
    obtain ⟨key, value⟩ := entry
    rw [List.map_cons, List.append_cons] at h
    -- the key is none of those before it
    have hnew : key ∉ t.keys := fun hkey =>
      (List.nodup_append.mp h.of_append_left).2.2 key hkey key List.mem_cons_self rfl
    have hrest : ((⟨t.entries ++ [(key, value)]⟩ : Table α).keys ++ rest.map Prod.fst).Nodup := by
      rw [keys, List.map_append]
      exact h
    rw [insertAll_cons, insert_of_notMem hnew, ih hrest, ← List.append_cons]

/-- **A table is built from its own entries.** -/
theorem ofList_entries (h : t.keys.Nodup) : ofList t.entries = t :=
  insertAll_of_nodup (t := empty) h

/-- Of the entries written, the last one of a key is found. -/
theorem get?_insertAll_reverse (t : Table α) (entries : List (String × α)) (key : String) :
    (t.insertAll entries).get? key = (entries.reverse.lookup key).or (t.get? key) := by
  induction entries generalizing t with
  | nil => rfl
  | cons entry rest ih =>
    obtain ⟨k, v⟩ := entry
    rw [insertAll_cons, ih, get?_insert, List.reverse_cons, List.lookup_append, Option.or_assoc]
    -- the first entry counts if it has the key and no later one does
    by_cases hk : key = k
    · simp [hk]
    · simp [List.lookup_cons, hk, beq_false_of_ne hk]

/-- **The last entry of a key is found.** -/
theorem get?_ofList_eq_some_iff : (ofList entries).get? key = some value ↔
    ∃ before after, entries = before ++ (key, value) :: after ∧ key ∉ after.map Prod.fst := by
  rw [ofList, get?_insertAll_reverse, get?_empty, Option.or_none, List.lookup_eq_some_iff]
  constructor
  · rintro ⟨later, earlier, hsplit, hother⟩
    refine ⟨earlier.reverse, later.reverse, ?_, ?_⟩
    · -- the first of the entries in reverse is the last
      rw [← List.reverse_inj, hsplit]
      simp
    · intro hmem
      obtain ⟨e, he, rfl⟩ := List.mem_map.mp hmem
      exact absurd (hother e (List.mem_reverse.mp he)) (by simp)
  · rintro ⟨before, after, rfl, hother⟩
    refine ⟨after.reverse, before.reverse, by simp, fun e he => ?_⟩
    have hne : e.1 ≠ key := fun heq =>
      hother (heq ▸ List.mem_map_of_mem (List.mem_reverse.mp he))
    simpa using hne.symm

/-- **The values of the table** are those of the last entries. -/
theorem mem_values_ofList_iff : value ∈ (ofList entries).values ↔
    ∃ before key after, entries = before ++ (key, value) :: after ∧
      key ∉ after.map Prod.fst := by
  have hfound : ∀ key, (ofList entries).get? key = some value ↔
      (key, value) ∈ (ofList entries).entries :=
    fun key => get?_eq_some_iff (nodup_keys_ofList entries)
  constructor
  · intro h
    obtain ⟨⟨key, v⟩, he, rfl⟩ := List.mem_map.mp h
    -- what is found is the last entry of its key
    obtain ⟨before, after, hsplit⟩ := get?_ofList_eq_some_iff.mp ((hfound key).mpr he)
    exact ⟨before, key, after, hsplit⟩
  · rintro ⟨before, key, after, hsplit⟩
    have hmem := (hfound key).mp (get?_ofList_eq_some_iff.mpr ⟨before, after, hsplit⟩)
    exact List.mem_map_of_mem hmem

end SearchIndex.Table
