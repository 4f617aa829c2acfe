import SearchIndex.Table

/-!
# Changes that hand out what they replace

Writing to a table and taking out of it both have an answer, the value that has been under the
key until then. It is found on the way to the place of the change, so one pass through the
entries gives the answer and the new table. Both are those of a look-up and of the change alone
(`Table.exchange_eq`, `Table.take_eq`).
-/

namespace SearchIndex.Table

variable {α : Type}

/-- The value that is replaced, if the key is there, and the entries after writing. -/
def exchangeEntry (key : String) (value : α) :
    List (String × α) → Option α × List (String × α)
  | [] => (none, [(key, value)])
  | (k, v) :: rest =>
    if k = key then (some v, (key, value) :: rest)
    else
      let (replaced, entries) := exchangeEntry key value rest
      (replaced, (k, v) :: entries)

/-- Writes `value` under `key` and hands out the value that it replaces. -/
def exchange (t : Table α) (key : String) (value : α) : Option α × Table α :=
  let (replaced, entries) := exchangeEntry key value t.entries
  (replaced, ⟨entries⟩)

/-- The value that is taken out, if the key is there, and the entries that are left. -/
def takeEntry (key : String) : List (String × α) → Option α × List (String × α)
  | [] => (none, [])
  | (k, v) :: rest =>
    if k = key then (some v, rest)
    else
      let (taken, entries) := takeEntry key rest
      (taken, (k, v) :: entries)

/-- Takes out the entry of `key` and hands out its value; the others keep their order. -/
def take (t : Table α) (key : String) : Option α × Table α :=
  let (taken, entries) := takeEntry key t.entries
  (taken, ⟨entries⟩)

theorem exchangeEntry_eq (key : String) (value : α) (entries : List (String × α)) :
    exchangeEntry key value entries = (entries.lookup key, insertEntry key value entries) := by
  induction entries with
  | nil => rfl
  | cons e rest ih =>
    obtain ⟨k, v⟩ := e
    by_cases hk : k = key
    · -- the entry is replaced where it stands, and its value handed out
      subst hk
      rw [exchangeEntry, if_pos rfl, insertEntry, if_pos rfl, List.lookup_cons_self]
    · have hne : (key == k) = false := beq_false_of_ne (Ne.symm hk)
      rw [exchangeEntry, if_neg hk, ih, insertEntry, if_neg hk, List.lookup_cons, hne]

theorem takeEntry_eq (key : String) (entries : List (String × α)) :
    takeEntry key entries = (entries.lookup key, entries.eraseP (fun e => e.1 == key)) := by
  induction entries with
  | nil => rfl
  | cons e rest ih =>
    obtain ⟨k, v⟩ := e
    by_cases hk : k = key
    · subst hk
      rw [takeEntry, if_pos rfl, List.lookup_cons_self, List.eraseP_cons_of_pos (by simp)]
    · have hne : (key == k) = false := beq_false_of_ne (Ne.symm hk)
      rw [takeEntry, if_neg hk, ih, List.lookup_cons, hne,
        List.eraseP_cons_of_neg (by simpa using hk)]

/-- Writing hands out what a look-up would have found. -/
theorem exchange_eq (t : Table α) (key : String) (value : α) :
    t.exchange key value = (t.get? key, t.insert key value) := by
  rw [exchange, exchangeEntry_eq]
  rfl

/-- Taking out hands out what a look-up would have found. -/
theorem take_eq (t : Table α) (key : String) : t.take key = (t.get? key, t.erase key) := by
  rw [take, takeEntry_eq]
  rfl

end SearchIndex.Table
