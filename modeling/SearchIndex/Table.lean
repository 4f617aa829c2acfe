/-!
# Tables in order of arrival

Documents, option lists, target field tables and registries of aggregations all
share one container: a finite map from text keys to values that remembers the
order in which its keys first arrived. `Table.insert` keeps the place of a key
that is already there, `Table.erase` keeps the order of what remains, and
`Table.swapErase` lets the last entry take the place of the one taken out.

A table is its list of entries. Keys are pairwise distinct in every table that
the operations build from the empty one (`Table.nodup_keys_insert`,
`Table.nodup_keys_erase`); the entries carry no proof of it, because documents
nest tables inside their own values.
-/

namespace SearchIndex

/-- A finite map from text keys to values, listed in order of first arrival. -/
structure Table (α : Type) where
  entries : List (String × α)

namespace Table

variable {α β : Type}

/-- The table without entries. -/
def empty : Table α := ⟨[]⟩

instance : EmptyCollection (Table α) := ⟨empty⟩

instance : Inhabited (Table α) := ⟨empty⟩

/-- The keys, in order of first arrival. -/
def keys (t : Table α) : List String := t.entries.map Prod.fst

/-- The values, in the order of their keys. -/
def values (t : Table α) : List α := t.entries.map Prod.snd

/-- The number of entries. -/
def size (t : Table α) : Nat := t.entries.length

/-- Whether there is no entry. -/
def isEmpty (t : Table α) : Bool := t.entries.isEmpty

/-- The value under a key. -/
def get? (t : Table α) (key : String) : Option α := t.entries.lookup key

/-- Whether a key is present. -/
def contains (t : Table α) (key : String) : Bool := (t.get? key).isSome

/-- The entries after writing `value` under `key`: in place if the key is there,
at the end otherwise. -/
def insertEntry (key : String) (value : α) : List (String × α) → List (String × α)
  | [] => [(key, value)]
  | (k, v) :: rest =>
    if k = key then (key, value) :: rest else (k, v) :: insertEntry key value rest

/-- Writes `value` under `key`; a key that is already present keeps its place. -/
def insert (t : Table α) (key : String) (value : α) : Table α :=
  ⟨insertEntry key value t.entries⟩

/-- Takes out the entry of `key`; the others keep their order. -/
def erase (t : Table α) (key : String) : Table α :=
  ⟨t.entries.eraseP (fun e => e.1 == key)⟩

/-- The entries after taking out that of `key` and moving the last one into the
gap. -/
def swapEraseEntry (key : String) : List (String × α) → List (String × α)
  | [] => []
  | (k, v) :: rest =>
    if k = key then
      match rest.getLast? with
      | none => []
      | some last => last :: rest.dropLast
    else (k, v) :: swapEraseEntry key rest

/-- Takes out the entry of `key`; the last entry takes its place. -/
def swapErase (t : Table α) (key : String) : Table α :=
  ⟨swapEraseEntry key t.entries⟩

/-- Writes a list of entries one after the other. -/
def insertAll (t : Table α) (entries : List (String × α)) : Table α :=
  entries.foldl (fun t e => t.insert e.1 e.2) t

/-- The table that a list of entries builds, later entries replacing earlier
ones in place. -/
def ofList (entries : List (String × α)) : Table α := empty.insertAll entries

/-- Applies a function to every value. -/
def map (f : α → β) (t : Table α) : Table β :=
  ⟨t.entries.map (fun e => (e.1, f e.2))⟩

/-! ### What the operations do to keys and values -/

@[simp] theorem keys_empty : (empty : Table α).keys = [] := rfl

@[simp] theorem get?_empty (key : String) : (empty : Table α).get? key = none := rfl

@[simp] theorem keys_map (f : α → β) (t : Table α) : (t.map f).keys = t.keys := by
  simp [keys, map, Function.comp_def]

theorem keys_insertEntry (key : String) (value : α) (es : List (String × α)) :
    (insertEntry key value es).map Prod.fst =
      if key ∈ es.map Prod.fst then es.map Prod.fst else es.map Prod.fst ++ [key] := by
  induction es with
  | nil => simp [insertEntry]
  | cons e rest ih =>
    obtain ⟨k, v⟩ := e
    by_cases h : k = key
    · simp [insertEntry, h]
    · have h' : ¬ key = k := fun e => h e.symm
      simp only [insertEntry, h, if_false, List.map_cons, ih, List.mem_cons, h', false_or]
      split <;> simp

/-- A key that is present stays where it is, and a new one goes to the end. -/
theorem keys_insert (t : Table α) (key : String) (value : α) :
    (t.insert key value).keys = if key ∈ t.keys then t.keys else t.keys ++ [key] :=
  keys_insertEntry key value t.entries

/-- The value written is found, and every other key answers as before. -/
theorem get?_insert (t : Table α) (key other : String) (value : α) :
    (t.insert key value).get? other = if other = key then some value else t.get? other := by
  obtain ⟨es⟩ := t
  simp only [insert, get?]
  induction es with
  | nil =>
    by_cases h : other = key
    · simp [insertEntry, h]
    · have hb : (other == key) = false := beq_false_of_ne h
      simp [insertEntry, List.lookup_cons, h, hb]
  | cons e rest ih =>
    obtain ⟨k, v⟩ := e
    by_cases h : k = key
    · subst h
      by_cases h' : other = k
      · simp [insertEntry, h']
      · have hb : (other == k) = false := beq_false_of_ne h'
        simp [insertEntry, List.lookup_cons, h', hb]
    · by_cases h' : other = k
      · subst h'
        simp [insertEntry, h]
      · have hb : (other == k) = false := beq_false_of_ne h'
        simp [insertEntry, List.lookup_cons, h, hb, ih]

/-- Writing keeps keys pairwise distinct. -/
theorem nodup_keys_insert {t : Table α} (h : t.keys.Nodup) (key : String) (value : α) :
    (t.insert key value).keys.Nodup := by
  rw [keys_insert]
  split
  · exact h
  · next hk =>
    rw [List.nodup_append]
    refine ⟨h, by simp, ?_⟩
    intro a ha b hb
    rw [List.mem_singleton] at hb
    exact fun e => hk (hb ▸ e ▸ ha)

/-- Taking a key out keeps keys pairwise distinct. -/
theorem nodup_keys_erase {t : Table α} (h : t.keys.Nodup) (key : String) :
    (t.erase key).keys.Nodup :=
  h.sublist ((List.eraseP_sublist).map Prod.fst)

end Table

end SearchIndex
