import SearchIndex.Options
import SearchIndex.Proofs.Table.OfList
import SearchIndex.Proofs.Text.Blank
import Mathlib.Data.Finset.Dedup
import Mathlib.Data.Finset.Max

/-!
# The keys that options list

Options store an entry under the canonical spelling of the key it is set by, and list it under
that spelling. A key that is listed is then looked up under the canonical spelling of the
canonical spelling, and the two need not be the same: blanks are trimmed before the colon in
front is taken off, and one colon only, so that what was behind the colon comes to stand in
front. `": shards"` is stored as `" shards"` and `"::shards"` as `":shards"`, and both of these
are looked up as `"shards"`.

The spelling is settled exactly for the keys without such a character behind the colon
(`Options.canonicalKey_canonicalKey_iff`). An entry under a settled key is found and taken out
by the key it is listed with, and options with settled keys only can be copied entry by entry;
with any other key neither holds (`Options.listed_keys`). That a copy cannot come out right by
accident is because a spelling that is not settled gets shorter: the longest such key is the
spelling of no other, so the copy lacks it.
-/

namespace SearchIndex

theorem Json.mem_keys_of_sameMembers {members : List (String × Json)} {t : Document}
    (h : Json.sameMembers members t = true) : ∀ key ∈ members.map Prod.fst, key ∈ t.keys := by
  induction members with
  | nil => exact fun key hkey => absurd hkey List.not_mem_nil
  | cons member rest ih =>
    obtain ⟨k, v⟩ := member
    rw [Json.sameMembers, Bool.and_eq_true] at h
    rw [List.map_cons, List.forall_mem_cons]
    refine ⟨?_, ih h.2⟩
    rw [Table.mem_keys_iff]
    cases hget : t.get? k with
    | some w => rfl
    | none => simp [hget] at h

namespace Options

/-! ### The canonical spelling -/

/-- The characters behind the colon in front, if there is one. -/
def dropColon : List Char → List Char
  | ':' :: rest => rest
  | cs => cs

theorem dropColon_cons_of_ne {c : Char} (h : c ≠ ':') (rest : List Char) :
    dropColon (c :: rest) = c :: rest := by
  rw [dropColon]
  rintro _ ⟨⟩
  exact h rfl

/-- At most one character is dropped. -/
theorem dropColon_sublist (cs : List Char) : (dropColon cs).Sublist cs := by
  cases cs with
  | nil => exact List.Sublist.refl []
  | cons c rest =>
    by_cases h : c = ':'
    · subst h
      exact List.sublist_cons_self ':' rest
    · rw [dropColon_cons_of_ne h]

theorem dropColon_map_toLower (cs : List Char) :
    dropColon (cs.map Char.toLower) = (dropColon cs).map Char.toLower := by
  cases cs with
  | nil => rfl
  | cons c rest =>
    by_cases h : c = ':'
    · subst h
      rfl
    · rw [dropColon_cons_of_ne h, List.map_cons,
        dropColon_cons_of_ne fun hlower => h (Text.toLower_eq_colon_iff.mp hlower)]

/-- What is left of the characters of a key, apart from the case of letters. -/
def bareKey (cs : List Char) : List Char := dropColon (Text.trimBlanks cs)

/-- The canonical spelling is the bare key in small letters. -/
theorem toList_canonicalKey (key : String) :
    (canonicalKey key).toList = (bareKey key.toList).map Char.toLower := by
  rw [canonicalKey, String.toList_ofList]
  rfl

theorem bareKey_sublist (cs : List Char) : (bareKey cs).Sublist cs :=
  (dropColon_sublist _).trans (Text.trimBlanks_sublist cs)

theorem bareKey_map_toLower (cs : List Char) :
    bareKey (cs.map Char.toLower) = (bareKey cs).map Char.toLower := by
  rw [bareKey, Text.trimBlanks_map_toLower, dropColon_map_toLower, bareKey]

theorem map_toLower_map_toLower (cs : List Char) :
    (cs.map Char.toLower).map Char.toLower = cs.map Char.toLower := by
  rw [List.map_map]
  exact List.map_congr_left fun c _ => Text.toLower_toLower c

/-- Nothing that is dropped at the start of a key stands behind the colon in front. -/
def Settles (key : String) : Prop :=
  ∀ c rest, Text.trimBlanks key.toList = ':' :: c :: rest → c ≠ ':' ∧ Text.isBlank c = false

/-- Behind a colon, nothing more is dropped exactly if no blank and no colon comes next. -/
theorem bareKey_cons_iff {c : Char} {rest : List Char}
    (hlast : ∀ c', (c :: rest).getLast? = some c' → Text.isBlank c' = false) :
    bareKey (c :: rest) = c :: rest ↔ c ≠ ':' ∧ Text.isBlank c = false := by
  constructor
  · intro h
    -- nothing has been dropped at all, so nothing has been trimmed
    have hdropped : (bareKey (c :: rest)).Sublist (Text.trimBlanks (c :: rest)) :=
      dropColon_sublist _
    rw [h] at hdropped
    have htrim : Text.trimBlanks (c :: rest) = c :: rest :=
      (Text.trimBlanks_sublist _).antisymm hdropped
    have hhead : (Text.trimBlanks (c :: rest)).head? = some c := by rw [htrim, List.head?_cons]
    refine ⟨?_, Text.isBlank_of_head?_trimBlanks hhead⟩
    rintro rfl
    rw [bareKey, htrim] at h
    exact List.cons_ne_self ':' rest h.symm
  · rintro ⟨hcolon, hblank⟩
    -- neither end can be trimmed, and there is no colon in front
    have htrim : Text.trimBlanks (c :: rest) = c :: rest :=
      Text.trimBlanks_eq_self (fun c' hc' => Option.some.inj hc' ▸ hblank) hlast
    rw [bareKey, htrim, dropColon_cons_of_ne hcolon]

/-- Dropping once drops everything exactly if the key settles. -/
theorem bareKey_bareKey_iff {key : String} :
    bareKey (bareKey key.toList) = bareKey key.toList ↔ Settles key := by
  have htrim := Text.trimBlanks_trimBlanks key.toList
  have hlast : ∀ c, (Text.trimBlanks key.toList).getLast? = some c → Text.isBlank c = false :=
    fun c => Text.isBlank_of_getLast?_trimBlanks
  rw [Settles, show bareKey key.toList = dropColon (Text.trimBlanks key.toList) from rfl]
  generalize Text.trimBlanks key.toList = trimmed at htrim hlast ⊢
  cases trimmed with
  | nil => exact iff_of_true rfl fun c rest h => by cases h
  | cons first rest =>
    by_cases h : first = ':'
    · subst h
      cases rest with
      | nil => exact iff_of_true rfl fun c rest h => by cases h
      | cons c rest =>
        -- what follows the colon decides
        have hlast' : ∀ c', (c :: rest).getLast? = some c' → Text.isBlank c' = false :=
          fun c' hc' => hlast c' hc'
        rw [dropColon, bareKey_cons_iff hlast']
        simp
    · -- without a colon in front the text has been trimmed for good
      rw [dropColon_cons_of_ne h, bareKey, htrim, dropColon_cons_of_ne h]
      simp [h]

/-- **Which spellings are settled.** -/
theorem canonicalKey_canonicalKey_iff {key : String} :
    canonicalKey (canonicalKey key) = canonicalKey key ↔ Settles key := by
  have htwice : (canonicalKey (canonicalKey key)).toList =
      (bareKey (bareKey key.toList)).map Char.toLower := by
    rw [toList_canonicalKey, toList_canonicalKey, bareKey_map_toLower, map_toLower_map_toLower]
  rw [← String.toList_inj, htwice, toList_canonicalKey, ← bareKey_bareKey_iff]
  constructor
  · intro h
    -- no character has been dropped the second time
    refine (bareKey_sublist _).eq_of_length ?_
    simpa using congrArg List.length h
  · exact fun h => congrArg (List.map Char.toLower) h

/-- A canonical spelling that is not settled gets shorter. -/
theorem length_canonicalKey_lt {key written : String} (h : canonicalKey written = key)
    (hne : canonicalKey key ≠ key) : (canonicalKey key).length < key.length := by
  -- a canonical spelling is in small letters already
  have hlower : key.toList.map Char.toLower = key.toList := by
    rw [← h, toList_canonicalKey, map_toLower_map_toLower]
  rw [← String.length_toList, ← String.length_toList, toList_canonicalKey, List.length_map]
  -- what drops nothing would leave the key as it is
  refine lt_of_le_of_ne (bareKey_sublist _).length_le fun hlength => hne ?_
  rw [← String.toList_inj, toList_canonicalKey, (bareKey_sublist _).eq_of_length hlength, hlower]

/-! ### Options throughout a session -/

/-- A change of options. -/
inductive Edit where
  | set (key : String) (value : Json)
  | remove (key : String)

/-- Makes a change. -/
def edit (o : Options) : Edit → Options
  | .set key value => o.insert key value
  | .remove key => o.erase key

/-- Makes changes one after the other. -/
def editAll (o : Options) (edits : List Edit) : Options := edits.foldl edit o

/-- The keys that are listed are distinct, and each is the canonical spelling of one of the
given keys. -/
structure SpelledFrom (o : Options) (written : String → Prop) : Prop where
  distinct : o.entries.keys.Nodup
  canonical : ∀ key ∈ o.entries.keys, ∃ w, written w ∧ canonicalKey w = key

namespace SpelledFrom

variable {o : Options} {written : String → Prop} {key : String} {value : Json}

theorem empty : Options.empty.SpelledFrom written :=
  ⟨List.nodup_nil, fun _ h => absurd h List.not_mem_nil⟩

theorem insert (h : o.SpelledFrom written) (hkey : written key) (value : Json) :
    (o.insert key value).SpelledFrom written := by
  refine ⟨Table.nodup_keys_insert h.distinct _ value, fun k hk => ?_⟩
  -- the key that has just been set, or one that was there
  rcases Table.mem_keys_insert.mp hk with rfl | hk
  · exact ⟨key, hkey, rfl⟩
  · exact h.canonical k hk

theorem erase (h : o.SpelledFrom written) (key : String) :
    (o.erase key).SpelledFrom written := by
  refine ⟨Table.nodup_keys_erase h.distinct _, fun k hk => h.canonical k ?_⟩
  exact (List.eraseP_sublist.map Prod.fst).subset hk

theorem insertAll (h : o.SpelledFrom written) {settings : List (String × Json)}
    (hset : ∀ e ∈ settings, written e.1) : (o.insertAll settings).SpelledFrom written := by
  induction settings generalizing o with
  | nil => exact h
  | cons e rest ih =>
    exact ih (h.insert (hset e List.mem_cons_self) e.2)
      fun e' he' => hset e' (List.mem_cons_of_mem e he')

/-- **The invariant of a session.** -/
theorem editAll (h : o.SpelledFrom written) {edits : List Edit}
    (hset : ∀ key value, .set key value ∈ edits → written key) :
    (o.editAll edits).SpelledFrom written := by
  induction edits generalizing o with
  | nil => exact h
  | cons change rest ih =>
    refine ih ?_ fun key value hmem => hset key value (List.mem_cons_of_mem change hmem)
    cases change with
    | set key value => exact h.insert (hset key value List.mem_cons_self) value
    | remove key => exact h.erase key

end SpelledFrom

/-! ### Listed keys -/

variable {o : Options} {key : String} {value : Json}

/-- An entry is found under the key it is listed with, if this is its canonical spelling. -/
theorem get?_of_settled (h : o.entries.keys.Nodup) (hmem : (key, value) ∈ o.toList)
    (hsettled : canonicalKey key = key) : o.get? key = some value := by
  rw [get?, hsettled]
  exact (Table.get?_eq_some_iff h).mpr hmem

/-- An entry that is listed under another key than the canonical spelling of a key is not taken
out by it. -/
theorem mem_toList_erase {e : String × Json} (he : e ∈ o.toList) (hne : e.1 ≠ canonicalKey key) :
    e ∈ (o.erase key).toList :=
  (List.mem_eraseP_of_neg (by simpa using hne)).mpr he

/-! ### Copies -/

theorem entries_insertAll (o : Options) (settings : List (String × Json)) :
    (o.insertAll settings).entries =
      o.entries.insertAll (settings.map fun e => (canonicalKey e.1, e.2)) := by
  induction settings generalizing o with
  | nil => rfl
  | cons e rest ih => exact ih (o.insert e.1 e.2)

/-- Options that are set are a table that is built under canonical keys. -/
theorem entries_ofList (settings : List (String × Json)) :
    (ofList settings).entries = Table.ofList (settings.map fun e => (canonicalKey e.1, e.2)) :=
  entries_insertAll Options.empty settings

/-- The keys of options that are set are the canonical spellings of those that are given. -/
theorem mem_keys_ofList {settings : List (String × Json)} {key : String} :
    key ∈ (ofList settings).entries.keys ↔ ∃ e ∈ settings, canonicalKey e.1 = key := by
  rw [entries_ofList, Table.mem_keys_ofList, List.map_map]
  simp

/-- Setting what is written canonically is writing it into a table. -/
theorem entries_ofList_of_settled {settings : List (String × Json)}
    (hsettled : ∀ e ∈ settings, canonicalKey e.1 = e.1) :
    (ofList settings).entries = Table.ofList settings := by
  have hsame : (settings.map fun e => (canonicalKey e.1, e.2)) = settings := by
    refine (List.map_congr_left fun e he => ?_).trans (List.map_id _)
    rw [hsettled e he]
    rfl
  rw [entries_ofList, hsame]

/-- Options with settled keys can be copied entry by entry. -/
theorem copy_eq_self (h : o.entries.keys.Nodup)
    (hsettled : ∀ e ∈ o.toList, canonicalKey e.1 = e.1) : ofList o.toList = o :=
  congrArg Options.mk ((entries_ofList_of_settled hsettled).trans (Table.ofList_entries h))

/-- A copy of options with a key that is not settled lacks a key. -/
theorem exists_notMem_keys_copy {written : String → Prop} (h : o.SpelledFrom written)
    {key : String} (hkey : key ∈ o.entries.keys) (hne : canonicalKey key ≠ key) :
    ∃ k ∈ o.entries.keys, k ∉ (ofList o.toList).entries.keys := by
  -- the longest of these keys could only come from a longer one
  obtain ⟨longest, hlongest, hmax⟩ :=
    (o.entries.keys.toFinset.filter fun k => canonicalKey k ≠ k).exists_max_image String.length
      ⟨key, by simpa using ⟨hkey, hne⟩⟩
  obtain ⟨hmem, hunsettled⟩ : longest ∈ o.entries.keys ∧ canonicalKey longest ≠ longest := by
    simpa using hlongest
  refine ⟨longest, hmem, fun hcopy => ?_⟩
  -- the entry of the copy under the longest key comes from some key of the options
  obtain ⟨⟨k, v⟩, he, (hspelled : canonicalKey k = longest)⟩ := mem_keys_ofList.mp hcopy
  have hk : k ∈ o.entries.keys := List.mem_map_of_mem he
  have hk_unsettled : canonicalKey k ≠ k := by
    intro hsettled
    rw [hspelled.symm.trans hsettled] at hunsettled
    exact hunsettled hsettled
  -- that key is a canonical spelling, so it is longer than what it is spelled as
  obtain ⟨w, -, hw⟩ := h.canonical k hk
  have hlonger := length_canonicalKey_lt hw hk_unsettled
  rw [hspelled] at hlonger
  exact absurd (hmax k (by simpa using ⟨hk, hk_unsettled⟩)) (Nat.not_le.mpr hlonger)

/-- Equal options list the same keys. -/
theorem mem_keys_of_same {o o' : Options} (h : o.same o' = true) :
    ∀ key ∈ o.entries.keys, key ∈ o'.entries.keys := by
  obtain ⟨⟨entries⟩⟩ := o
  rw [same, Document.same, Json.same, Bool.and_eq_true] at h
  exact Json.mem_keys_of_sameMembers h.2

/-- **What listed keys are good for.** In options that any settings and changes lead to, a
listed key is found with its value if its spelling is settled, and otherwise does not even stand
for its own entry. If all are settled, the options can be copied, and otherwise a copy never
comes out equal. Each listed key is the canonical spelling of a key that has been set, and
settled exactly if that key settles. -/
theorem listed_keys (settings : List (String × Json)) (edits : List Edit) :
    let o := (ofList settings).editAll edits
    (∀ e ∈ o.toList,
      (canonicalKey e.1 = e.1 → o.get? e.1 = some e.2 ∧ o.contains e.1 = true) ∧
      (canonicalKey e.1 ≠ e.1 → e ∈ (o.erase e.1).toList)) ∧
    ((∀ e ∈ o.toList, canonicalKey e.1 = e.1) → ofList o.toList = o) ∧
    ((∃ e ∈ o.toList, canonicalKey e.1 ≠ e.1) → o.same (ofList o.toList) = false) ∧
    (∀ e ∈ o.toList, ∃ w value, ((w, value) ∈ settings ∨ .set w value ∈ edits) ∧
      canonicalKey w = e.1) ∧
    ∀ key, canonicalKey (canonicalKey key) = canonicalKey key ↔ Settles key := by
  intro o
  have hset : ∀ e ∈ settings, ∃ value, (e.1, value) ∈ settings ∨ .set e.1 value ∈ edits :=
    fun e he => ⟨e.2, Or.inl he⟩
  have hspelled : o.SpelledFrom fun w => ∃ value, (w, value) ∈ settings ∨ .set w value ∈ edits :=
    (SpelledFrom.empty.insertAll hset).editAll fun key value h => ⟨value, Or.inr h⟩
  refine ⟨fun e he => ⟨fun hsettled => ?found, fun hne => ?astray⟩,
    copy_eq_self hspelled.distinct, fun ⟨e, he, hne⟩ => ?lost, fun e he => ?spelled,
    fun key => canonicalKey_canonicalKey_iff⟩
  case found =>
    have hget := get?_of_settled hspelled.distinct he hsettled
    refine ⟨hget, ?_⟩
    rw [get?] at hget
    rw [contains, Table.contains, hget]
    rfl
  case astray => exact mem_toList_erase he hne.symm
  case lost =>
    obtain ⟨k, hk, hmissing⟩ :=
      exists_notMem_keys_copy hspelled (List.mem_map_of_mem he) hne
    exact eq_false_of_ne_true fun hsame => hmissing (mem_keys_of_same hsame k hk)
  case spelled =>
    obtain ⟨w, ⟨value, hw⟩, hspell⟩ := hspelled.canonical e.1 (List.mem_map_of_mem he)
    exact ⟨w, value, hw, hspell⟩

/-- Not every listed key is found, and not all options can be copied: a blank behind the colon
is kept, and trimmed on the next occasion. -/
theorem listed_key_not_found :
    let o := ofList [(": shards", .ofNat 1)]
    o.toList = [(" shards", .ofNat 1)] ∧ o.get? " shards" = none ∧
      o.contains " shards" = false ∧ o.same (ofList o.toList) = false ∧
      canonicalKey (canonicalKey ": shards") ≠ canonicalKey ": shards" := by
  refine ⟨rfl, rfl, rfl, rfl, ?_⟩
  decide

/-- Of several colons in front one is taken off at a time. -/
example : canonicalKey "::shards" = ":shards" ∧ canonicalKey ":shards" = "shards" := ⟨rfl, rfl⟩

end Options

end SearchIndex
