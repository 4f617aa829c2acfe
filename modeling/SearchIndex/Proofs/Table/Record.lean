import SearchIndex.Proofs.Table.OfList
import Mathlib.Data.List.Induction

/-!
# What a table keeps of a list of writes

Of all that is written into an empty table, two things are left. The keys stand in the order in
which each was written first, and under each key is the value that was written last.
`Table.Records` says this of a table and a list of entries. One more write is one more entry
(`Table.Records.insert`), so it holds of the table that the list builds (`Table.records_ofList`).

A key that is taken out leaves no trace: the table is the one that is built from the writes under
other keys (`Table.erase_ofList`). A key that is written again after that therefore goes to the
end.
-/

namespace SearchIndex.Table

variable {α : Type} {entries : List (String × α)} {key : String} {value : α}

/-- The value stands under the key in a list of entries, and no later entry has the key. -/
def IsLast (entries : List (String × α)) (key : String) (value : α) : Prop :=
  ∃ before after, entries = before ++ (key, value) :: after ∧ key ∉ after.map Prod.fst

/-- The keys of a table are those of a list of entries, in the order in which they come first,
and its values are those that come last. -/
structure Records (t : Table α) (entries : List (String × α)) : Prop where
  keys_eq : t.keys = (entries.map Prod.fst).eraseDups
  get?_eq_some_iff : ∀ key value, t.get? key = some value ↔ IsLast entries key value

/-- A new key is written behind those that are there. -/
theorem eraseDups_append_singleton (keys : List String) (key : String) :
    (keys ++ [key]).eraseDups = if key ∈ keys then keys.eraseDups else keys.eraseDups ++ [key] := by
  rw [List.eraseDups_append]
  by_cases hk : key ∈ keys
  · have hnone : [key].removeAll keys = [] := by simp [List.removeAll, hk]
    rw [if_pos hk, hnone, List.eraseDups_nil, List.append_nil]
  · have hone : [key].removeAll keys = [key] := by simp [List.removeAll, hk]
    rw [if_neg hk, hone]
    rfl

theorem ofList_append_singleton (entries : List (String × α)) (e : String × α) :
    ofList (entries ++ [e]) = (ofList entries).insert e.1 e.2 := by
  rw [ofList, insertAll, List.foldl_append]
  rfl

theorem records_empty : (empty : Table α).Records [] where
  keys_eq := rfl
  get?_eq_some_iff key value := by
    constructor
    · intro h
      cases h
    · rintro ⟨before, after, hsplit, -⟩
      exact absurd hsplit.symm (List.append_ne_nil_of_right_ne_nil before (List.cons_ne_nil _ after))

namespace Records

variable {t : Table α}

theorem mem_keys_iff (h : t.Records entries) : key ∈ t.keys ↔ key ∈ entries.map Prod.fst := by
  rw [h.keys_eq, List.mem_eraseDups]

theorem get?_eq (h : t.Records entries) (key : String) : t.get? key = (ofList entries).get? key :=
  Option.ext fun value => (h.get?_eq_some_iff key value).trans get?_ofList_eq_some_iff.symm

/-- **A write is the last of those that the table has kept.** -/
theorem insert (h : t.Records entries) (key : String) (value : α) :
    (t.insert key value).Records (entries ++ [(key, value)]) where
  keys_eq := by
    rw [keys_insert, List.map_append, List.map_singleton, eraseDups_append_singleton, ← h.keys_eq]
    simp only [h.mem_keys_iff]
  get?_eq_some_iff other v := by
    -- the table and the one built from the list answer alike before the write, so also after it
    rw [get?_insert, h.get?_eq, ← get?_insert, ← ofList_append_singleton entries (key, value)]
    exact get?_ofList_eq_some_iff

theorem insertAll (h : t.Records entries) (more : List (String × α)) :
    (t.insertAll more).Records (entries ++ more) := by
  induction more generalizing t entries with
  | nil =>
    rw [List.append_nil]
    exact h
  | cons e rest ih =>
    rw [insertAll_cons, List.append_cons]
    exact ih (h.insert e.1 e.2)

end Records

/-- **A table records the writes that have built it.** -/
theorem records_ofList (entries : List (String × α)) : (ofList entries).Records entries :=
  records_empty.insertAll entries

namespace Records

variable {t : Table α}

theorem distinct (h : t.Records entries) : t.keys.Nodup := by
  rw [h.keys_eq, ← (records_ofList entries).keys_eq]
  exact nodup_keys_ofList entries

theorem mem_entries_iff (h : t.Records entries) :
    (key, value) ∈ t.entries ↔ IsLast entries key value := by
  rw [← Table.get?_eq_some_iff h.distinct]
  exact h.get?_eq_some_iff key value

end Records

/-! ### Taking a key out -/

/-- What is taken out need not have been written. -/
theorem erase_insert_self (t : Table α) (key : String) (value : α) :
    (t.insert key value).erase key = t.erase key := by
  obtain ⟨entries⟩ := t
  simp only [insert, erase, mk.injEq]
  induction entries with
  | nil => simp [insertEntry]
  | cons e rest ih =>
    obtain ⟨k, v⟩ := e
    by_cases hk : k = key
    · -- both take out the entry in front
      subst hk
      rw [insertEntry, if_pos rfl, List.eraseP_cons_of_pos (by simp),
        List.eraseP_cons_of_pos (by simp)]
    · rw [insertEntry, if_neg hk, List.eraseP_cons_of_neg (by simpa using hk), ih,
        List.eraseP_cons_of_neg (by simpa using hk)]

/-- Writing and taking out have nothing to do with each other under different keys. -/
theorem erase_insert_of_ne (t : Table α) {other : String} (h : key ≠ other) (value : α) :
    (t.insert key value).erase other = (t.erase other).insert key value := by
  obtain ⟨entries⟩ := t
  simp only [insert, erase, mk.injEq]
  induction entries with
  | nil => simp [insertEntry, h]
  | cons e rest ih =>
    obtain ⟨k, v⟩ := e
    by_cases hk : k = key
    · subst hk
      rw [insertEntry, if_pos rfl, List.eraseP_cons_of_neg (by simpa using h),
        List.eraseP_cons_of_neg (by simpa using h), insertEntry, if_pos rfl]
    · rw [insertEntry, if_neg hk]
      by_cases hother : k = other
      · rw [List.eraseP_cons_of_pos (by simpa using hother),
          List.eraseP_cons_of_pos (by simpa using hother)]
      · rw [List.eraseP_cons_of_neg (by simpa using hother), ih,
          List.eraseP_cons_of_neg (by simpa using hother), insertEntry, if_neg hk]

/-- **A key that is taken out leaves no trace** of what has been written under it. -/
theorem erase_ofList (entries : List (String × α)) (key : String) :
    (ofList entries).erase key = ofList (entries.filter fun e => e.1 ≠ key) := by
  induction entries using List.reverseRecOn with
  | nil => rfl
  | append_singleton entries e ih =>
    rw [ofList_append_singleton, List.filter_append]
    by_cases hkey : e.1 = key
    · -- the last write is taken out again, and the list goes without it
      have hdropped : [e].filter (fun e => e.1 ≠ key) = [] := by simp [hkey]
      rw [hdropped, List.append_nil, ← ih, hkey, erase_insert_self]
    · have hkept : [e].filter (fun e => e.1 ≠ key) = [e] := by simp [hkey]
      rw [hkept, ofList_append_singleton, ← ih, erase_insert_of_ne _ hkey]

/-- Where keys are distinct, taking one out leaves the entries of the others, in order. -/
theorem entries_erase {t : Table α} (h : t.keys.Nodup) (key : String) :
    (t.erase key).entries = t.entries.filter fun e => e.1 ≠ key := by
  -- the table is built from its own entries, and so is the one without the key
  have hsame := erase_ofList t.entries key
  have hdistinct : (⟨t.entries.filter fun e => e.1 ≠ key⟩ : Table α).keys.Nodup :=
    h.sublist (List.filter_sublist.map Prod.fst)
  have hkept := ofList_entries hdistinct
  rw [ofList_entries h, hkept] at hsame
  exact congrArg Table.entries hsame

/-- Writing under a key that is there changes its value and nothing else. -/
theorem entries_insert_of_mem {t : Table α} (h : t.keys.Nodup) (hkey : key ∈ t.keys) (value : α) :
    (t.insert key value).entries =
      t.entries.map fun e => if e.1 = key then (e.1, value) else e := by
  obtain ⟨entries⟩ := t
  simp only [insert, keys] at h hkey ⊢
  induction entries with
  | nil => exact absurd hkey List.not_mem_nil
  | cons e rest ih =>
    obtain ⟨k, v⟩ := e
    obtain ⟨hnew, hrest⟩ := List.nodup_cons.mp h
    rw [insertEntry, List.map_cons]
    by_cases hk : k = key
    · -- no later entry has the key
      subst hk
      have hlater : ∀ e ∈ rest, (if e.1 = k then (e.1, value) else e) = e := by
        intro e he
        have hmem : e.1 ∈ rest.map Prod.fst := List.mem_map_of_mem he
        rw [if_neg]
        intro hsame
        exact hnew (hsame ▸ hmem)
      rw [if_pos rfl, List.map_congr_left hlater, List.map_id', if_pos rfl]
    · have hlater : key ∈ rest.map Prod.fst :=
        (List.mem_cons.mp hkey).resolve_left (Ne.symm hk)
      rw [if_neg hk, ih hrest hlater, if_neg hk]

end SearchIndex.Table
