import SearchIndex.Table

/-!
# Writing many entries into a table

`Table.insertAll` writes one entry after the other, which lays a second table over the
first: `Table.get?_insertAll` says which value a key has afterwards, and
`Table.keys_insertAll` in which order the keys stand. Both ask that the entries written
have distinct keys, as those of a table do.
-/

namespace SearchIndex.Table

variable {α : Type}

theorem insertAll_cons (t : Table α) (entry : String × α) (rest : List (String × α)) :
    t.insertAll (entry :: rest) = (t.insert entry.1 entry.2).insertAll rest := rfl

/-- The keys of a table are those that are found. -/
theorem mem_keys_iff {t : Table α} {key : String} : key ∈ t.keys ↔ (t.get? key).isSome := by
  obtain ⟨entries⟩ := t
  simp only [keys, get?]
  induction entries with
  | nil => simp
  | cons entry rest ih =>
    -- the first entry either has the key or does not take part
    rw [List.map_cons, List.mem_cons, List.lookup_cons, ih]
    cases hk : key == entry.1 with
    | true => simp [eq_of_beq hk]
    | false => simp [ne_of_beq_false hk]

/-- A new entry goes to the end. -/
theorem insert_of_notMem {t : Table α} {key : String} (h : key ∉ t.keys) (value : α) :
    t.insert key value = ⟨t.entries ++ [(key, value)]⟩ := by
  obtain ⟨entries⟩ := t
  rw [keys] at h
  rw [insert, mk.injEq]
  induction entries with
  | nil => rfl
  | cons entry rest ih =>
    obtain ⟨k, v⟩ := entry
    obtain ⟨hk, hrest⟩ := List.ne_and_not_mem_of_not_mem_cons h
    rw [insertEntry, if_neg hk.symm, ih hrest]
    rfl

/-- Writing adds the key, unless it is there. -/
theorem mem_keys_insert {t : Table α} {key other : String} {value : α} :
    other ∈ (t.insert key value).keys ↔ other = key ∨ other ∈ t.keys := by
  rw [mem_keys_iff, mem_keys_iff, get?_insert]
  by_cases h : other = key <;> simp [h]

/-- An entry is the one just written or was there before. -/
theorem mem_entries_insert {t : Table α} {key : String} {value : α} {entry : String × α}
    (h : entry ∈ (t.insert key value).entries) : entry = (key, value) ∨ entry ∈ t.entries := by
  obtain ⟨entries⟩ := t
  simp only [insert] at h
  induction entries with
  | nil => exact Or.inl (List.mem_singleton.mp h)
  | cons first rest ih =>
    rw [insertEntry] at h
    split at h
    · exact (List.mem_cons.mp h).imp id (List.mem_cons_of_mem first)
    · rcases List.mem_cons.mp h with rfl | h
      · exact Or.inr List.mem_cons_self
      · exact (ih h).imp id (List.mem_cons_of_mem first)

theorem mem_keys_insertAll {t : Table α} {entries : List (String × α)} {key : String} :
    key ∈ (t.insertAll entries).keys ↔ key ∈ t.keys ∨ key ∈ entries.map Prod.fst := by
  induction entries generalizing t with
  | nil => simp [insertAll]
  | cons entry rest ih =>
    rw [insertAll_cons, ih, mem_keys_insert, List.map_cons, List.mem_cons, ← or_assoc,
      or_comm (a := key = entry.1)]

/-- **The entries written win**, and every other key answers as before. -/
theorem get?_insertAll (t : Table α) {entries : List (String × α)}
    (h : (entries.map Prod.fst).Nodup) (key : String) :
    (t.insertAll entries).get? key = (entries.lookup key).or (t.get? key) := by
  induction entries generalizing t with
  | nil => rfl
  | cons entry rest ih =>
    obtain ⟨k, v⟩ := entry
    obtain ⟨hnew, hrest⟩ := List.nodup_cons.mp h
    rw [insertAll_cons, ih _ hrest, get?_insert, List.lookup_cons]
    by_cases hk : key = k
    · -- no later entry has this key, so the one written now stays
      subst hk
      have hnone : rest.lookup key = none := by
        rw [← Option.not_isSome_iff_eq_none]
        exact fun hsome => hnew (mem_keys_iff (t := ⟨rest⟩).mpr hsome)
      simp [hnone]
    · simp [hk, beq_false_of_ne hk]

/-- A key that is not written answers as before. -/
theorem get?_insertAll_of_notMem (t : Table α) {entries : List (String × α)} {key : String}
    (h : key ∉ entries.map Prod.fst) : (t.insertAll entries).get? key = t.get? key := by
  induction entries generalizing t with
  | nil => rfl
  | cons entry rest ih =>
    obtain ⟨hk, hrest⟩ := List.ne_and_not_mem_of_not_mem_cons h
    rw [insertAll_cons, ih _ hrest, get?_insert, if_neg hk]

/-- **Keys that are there keep their order**, and new ones follow in the order in which
they are written. -/
theorem keys_insertAll (t : Table α) {entries : List (String × α)}
    (h : (entries.map Prod.fst).Nodup) :
    (t.insertAll entries).keys =
      t.keys ++ (entries.map Prod.fst).filter (fun key => key ∉ t.keys) := by
  induction entries generalizing t with
  | nil => exact (List.append_nil t.keys).symm
  | cons entry rest ih =>
    obtain ⟨k, v⟩ := entry
    obtain ⟨hnew, hrest⟩ := List.nodup_cons.mp h
    rw [insertAll_cons, ih _ hrest, keys_insert, List.map_cons]
    by_cases hk : k ∈ t.keys
    · rw [if_pos hk, List.filter_cons_of_neg (by simpa using hk)]
    · -- `k` is new, and no later entry has it, so it does not matter that it is there now
      rw [if_neg hk, List.filter_cons_of_pos (by simpa using hk), List.append_assoc]
      have hsame : (rest.map Prod.fst).filter (fun key => key ∉ t.keys ++ [k])
          = (rest.map Prod.fst).filter (fun key => key ∉ t.keys) := by
        refine List.filter_congr fun key hkey => ?_
        have hne : key ≠ k := fun e => hnew (e ▸ hkey)
        simp [hne]
      rw [hsame]
      rfl

end SearchIndex.Table
