import SearchIndex.Options.Session
import SearchIndex.Proofs.Table.Record
import Mathlib.Data.Set.Card

/-!
# Options throughout a session

Options are a map that remembers the order of its settings, and what they are a map of is not
keys but canonical spellings: every operation brings its key into the canonical spelling and goes
on with that. `Options.session_as_map` says what this comes to for operations of any kind and
number, made one after the other. What is found under a key is what was set last under any
spelling of it, unless it has been taken out since (`Options.Holds`); an answer is never about
anything else; and the settings are listed in the order in which their present lives began.

The history of a session is read from its end. `Since` is the form of all that is asked of it:
something happened, and from then on something else did not. One more operation decides such a
question by itself or leaves it as it was (`Since.append_singleton_iff`), and it does the same to
what the options hold (`Options.get?_perform_iff`), so the two go together throughout a session
(`Options.get?_after_iff`). The order follows from the tables that a list of writes builds, because
a key that is taken out leaves no trace in them (`Options.entries_after`).
-/

namespace SearchIndex

/-- Something of the one kind has happened, and everything behind it is of the other. -/
def Since {α : Type} (started lasts : α → Prop) (history : List α) : Prop :=
  ∃ before a after, history = before ++ a :: after ∧ started a ∧ ∀ later ∈ after, lasts later

theorem not_since_nil {α : Type} (started lasts : α → Prop) : ¬ Since started lasts [] := by
  rintro ⟨before, a, after, hsplit, -⟩
  exact absurd hsplit.symm (List.append_ne_nil_of_right_ne_nil before (List.cons_ne_nil a after))

/-- What happens last either starts anew or has to be such that the old goes on. -/
theorem Since.append_singleton_iff {α : Type} {started lasts : α → Prop} {history : List α}
    {a : α} : Since started lasts (history ++ [a]) ↔
      started a ∨ (Since started lasts history ∧ lasts a) := by
  constructor
  · rintro ⟨before, first, after, hsplit, hfirst, hafter⟩
    -- what happens last has either started it all or comes behind the start
    rcases List.eq_nil_or_concat after with rfl | ⟨init, last, rfl⟩
    · obtain ⟨-, hlast⟩ := List.append_inj' hsplit rfl
      obtain rfl : a = first := List.singleton_inj.mp hlast
      exact Or.inl hfirst
    · rw [List.concat_eq_append, ← List.cons_append, ← List.append_assoc] at hsplit
      obtain ⟨hhistory, hlast⟩ := List.append_inj' hsplit rfl
      obtain rfl : a = last := List.singleton_inj.mp hlast
      refine Or.inr ⟨⟨before, first, init, hhistory, hfirst, fun later hlater => ?_⟩, ?_⟩
      · -- what lies behind the start is behind it in the longer history too
        exact hafter later (by simp [hlater])
      · exact hafter a (by simp)
  · rintro (ha | ⟨⟨before, first, after, rfl, hfirst, hafter⟩, ha⟩)
    · -- what happens last starts anew, and nothing is behind it
      exact ⟨history, a, [], rfl, ha, fun later h => absurd h List.not_mem_nil⟩
    · refine ⟨before, first, after ++ [a], by simp, hfirst, fun later hlater => ?_⟩
      rcases List.mem_append.mp hlater with hlater | hlater
      · exact hafter later hlater
      · rwa [List.mem_singleton.mp hlater]

namespace Options

/-! ### The history of a spelling -/

/-- The operation sets a value under a canonical spelling. -/
def Operation.Sets (spelling : String) (value : Json) (op : Operation) : Prop :=
  ∃ key, op = .insert key value ∧ canonicalKey key = spelling

/-- The operation takes out what is under a canonical spelling. -/
def Operation.Removes (spelling : String) (op : Operation) : Prop :=
  ∃ key, op = .remove key ∧ canonicalKey key = spelling

/-- The value is the last that has been set under the spelling, and it has not been taken out
since. -/
def Holds (operations : List Operation) (spelling : String) (value : Json) : Prop :=
  Since (Operation.Sets spelling value)
    (fun later => (∀ v, ¬ later.Sets spelling v) ∧ ¬ later.Removes spelling) operations

/-- Something has been set under the spelling and has not been taken out since. -/
def Live (operations : List Operation) (spelling : String) : Prop :=
  Since (fun op => ∃ value, op.Sets spelling value) (fun later => ¬ later.Removes spelling)
    operations

variable {operations : List Operation} {spelling key : String} {value : Json} {o : Options}

theorem Operation.sets_insert_iff {v : Json} :
    (Operation.insert key v).Sets spelling value ↔ canonicalKey key = spelling ∧ v = value := by
  constructor
  · rintro ⟨_, ⟨⟩, hspelled⟩
    exact ⟨hspelled, rfl⟩
  · rintro ⟨hspelled, rfl⟩
    exact ⟨key, rfl, hspelled⟩

theorem Operation.removes_remove_iff :
    (Operation.remove key).Removes spelling ↔ canonicalKey key = spelling := by
  constructor
  · rintro ⟨_, ⟨⟩, hspelled⟩
    exact hspelled
  · intro hspelled
    exact ⟨key, rfl, hspelled⟩

/-- What is live has a value that was set last. -/
theorem live_iff : Live operations spelling ↔ ∃ value, Holds operations spelling value := by
  induction operations using List.reverseRecOn with
  | nil =>
    refine ⟨fun h => absurd h (not_since_nil _ _), fun ⟨value, h⟩ => ?_⟩
    exact absurd h (not_since_nil _ _)
  | append_singleton operations op ih =>
    unfold Live Holds at ih ⊢
    simp only [Since.append_singleton_iff, ih]
    constructor
    · rintro (⟨value, hsets⟩ | ⟨⟨value, hvalue⟩, hkept⟩)
      · exact ⟨value, Or.inl hsets⟩
      · -- the value stays unless the last operation has set another
        by_cases hsets : ∃ v, op.Sets spelling v
        · obtain ⟨v, hv⟩ := hsets
          exact ⟨v, Or.inl hv⟩
        · exact ⟨value, Or.inr ⟨hvalue, fun v hv => hsets ⟨v, hv⟩, hkept⟩⟩
    · rintro ⟨value, hsets | ⟨hvalue, -, hkept⟩⟩
      · -- it is set by the last operation
        exact Or.inl ⟨value, hsets⟩
      · -- it was live, and the last operation does not take it out
        exact Or.inr ⟨⟨value, hvalue⟩, hkept⟩

/-! ### Along a session -/

theorem after_append_singleton (o : Options) (operations : List Operation) (op : Operation) :
    o.after (operations ++ [op]) = ((o.after operations).perform op).2 := by
  rw [after, List.foldl_append]
  rfl

/-- The settings of a session that have not been taken out again, under their canonical
spellings, each as often as it has been made. -/
def surviving (operations : List Operation) : List (String × Json) :=
  operations.foldl (fun settings op =>
    match op with
    | .insert key value => settings ++ [(canonicalKey key, value)]
    | .remove key => settings.filter fun e => e.1 ≠ canonicalKey key
    | _ => settings) []

/-- **The options after a session** are those that the surviving settings alone build. -/
theorem entries_after (operations : List Operation) :
    (empty.after operations).entries = Table.ofList (surviving operations) := by
  induction operations using List.reverseRecOn with
  | nil => rfl
  | append_singleton operations op ih =>
    rw [after_append_singleton, surviving, List.foldl_append, ← surviving]
    cases op with
    | insert key value =>
      -- one more setting survives, whether or not its key is there already
      rw [perform_insert]
      show (empty.after operations).entries.insert (canonicalKey key) value = _
      rw [ih, ← Table.ofList_append_singleton _ (canonicalKey key, value)]
      rfl
    | remove key =>
      -- the key leaves no trace, as if it had never been set
      rw [perform_remove]
      show (empty.after operations).entries.erase (canonicalKey key) = _
      rw [ih, Table.erase_ofList]
      rfl
    | _ => exact ih

theorem records_after (operations : List Operation) :
    (empty.after operations).entries.Records (surviving operations) := by
  rw [entries_after]
  exact Table.records_ofList _

/-- What is under a spelling after an operation is what the operation has set there, or what has
been there and is not affected. -/
theorem get?_perform_iff (h : o.entries.keys.Nodup) (op : Operation) :
    (o.perform op).2.entries.get? spelling = some value ↔
      op.Sets spelling value ∨ (o.entries.get? spelling = some value ∧
        (∀ v, ¬ op.Sets spelling v) ∧ ¬ op.Removes spelling) := by
  cases op with
  | insert key v =>
    have hkept : ¬ (Operation.insert key v).Removes spelling := by rintro ⟨_, ⟨⟩, -⟩
    rw [perform_insert]
    show (o.entries.insert (canonicalKey key) v).get? spelling = some value ↔ _
    simp only [Table.get?_insert, Operation.sets_insert_iff, hkept, not_false_eq_true, and_true]
    -- at the spelling that is set, or at another one
    by_cases hspelled : canonicalKey key = spelling
    · simp [hspelled]
    · simp [hspelled, Ne.symm hspelled]
  | remove key =>
    have hsets : ∀ v, ¬ (Operation.remove key).Sets spelling v := by rintro v ⟨_, ⟨⟩, -⟩
    rw [perform_remove]
    show (o.entries.erase (canonicalKey key)).get? spelling = some value ↔ _
    simp only [hsets, Operation.removes_remove_iff, false_or, not_false_eq_true, implies_true,
      true_and]
    by_cases hspelled : canonicalKey key = spelling
    · -- the key was there once
      subst hspelled
      rw [Table.get?_eq_some_iff (Table.nodup_keys_erase h _), Table.entries_erase h]
      simp
    · rw [Table.get?_erase_of_ne _ (Ne.symm hspelled)]
      simp [hspelled]
  | _ =>
    -- a look-up has nothing to do with what is under any spelling
    refine ⟨fun hget => Or.inr ⟨hget, ?_, ?_⟩, ?_⟩
    · rintro v ⟨_, ⟨⟩, -⟩
    · rintro ⟨_, ⟨⟩, -⟩
    · rintro (⟨_, ⟨⟩, -⟩ | ⟨hget, -⟩)
      exact hget

/-- **What is under a spelling after a session** is what was set there last and has not been taken
out since. -/
theorem get?_after_iff :
    (empty.after operations).entries.get? spelling = some value ↔
      Holds operations spelling value := by
  -- from the end of the session, which decides or leaves what has been
  induction operations using List.reverseRecOn with
  | nil =>
    refine ⟨fun hget => ?_, fun h => absurd h (not_since_nil _ _)⟩
    cases hget
  | append_singleton operations op ih =>
    rw [after_append_singleton, get?_perform_iff (records_after operations).distinct, ih]
    exact Since.append_singleton_iff.symm

/-- The spellings that are listed are those that are live. -/
theorem mem_keys_after_iff :
    spelling ∈ (empty.after operations).entries.keys ↔ Live operations spelling := by
  rw [Table.mem_keys_iff, Option.isSome_iff_exists, live_iff]
  simp only [get?_after_iff]

theorem contains_iff : o.contains key = true ↔ canonicalKey key ∈ o.entries.keys := by
  rw [Table.mem_keys_iff]
  rfl

/-! ### Two spellings of a session -/

/-- Two operations are the same but for the spelling of the key. -/
inductive Operation.SpelledAlike : Operation → Operation → Prop where
  | insert {key key' : String} (spelled : canonicalKey key = canonicalKey key') (value : Json) :
      SpelledAlike (.insert key value) (.insert key' value)
  | remove {key key' : String} (spelled : canonicalKey key = canonicalKey key') :
      SpelledAlike (.remove key) (.remove key')
  | get {key key' : String} (spelled : canonicalKey key = canonicalKey key') :
      SpelledAlike (.get key) (.get key')
  | contains {key key' : String} (spelled : canonicalKey key = canonicalKey key') :
      SpelledAlike (.contains key) (.contains key')
  | list : SpelledAlike .list .list
  | size : SpelledAlike .size .size

theorem Operation.SpelledAlike.perform_eq {op op' : Operation} (h : op.SpelledAlike op')
    (o : Options) : o.perform op = o.perform op' := by
  cases h with
  | insert spelled value =>
    -- every operation looks at the spelling of its key only
    rw [perform_insert, perform_insert, Options.get?, Options.get?, Options.insert, Options.insert,
      spelled]
  | remove spelled =>
    rw [perform_remove, perform_remove, Options.get?, Options.get?, Options.erase, Options.erase,
      spelled]
  | get spelled => rw [Options.perform, Options.perform, Options.get?, Options.get?, spelled]
  | contains spelled =>
    rw [Options.perform, Options.perform, Options.contains, Options.contains, spelled]
  | list => rfl
  | size => rfl

/-- **Spellings make no difference**, neither to the options nor to the answers. -/
theorem session_eq_of_spelledAlike {operations operations' : List Operation}
    (h : List.Forall₂ Operation.SpelledAlike operations operations') (o : Options) :
    o.after operations = o.after operations' ∧ o.answers operations = o.answers operations' := by
  induction h generalizing o with
  | nil => exact ⟨rfl, rfl⟩
  | @cons op op' rest rest' hop _ ih =>
    -- the first operations leave the same options, from which the others go on
    obtain ⟨hafter, hanswers⟩ := ih (o.perform op).2
    have hsame := hop.perform_eq o
    constructor
    · show (o.perform op).2.after rest = (o.perform op').2.after rest'
      rw [hafter, hsame]
    · rw [answers, answers, hanswers, hsame]

/-! ### The map of spellings -/

/-- What options are, and what any operation then does with them, after a history of
operations. -/
structure ActsAsMap (o : Options) (operations : List Operation) : Prop where
  /-- Look-ups find what was set last and is still there. -/
  get?_eq_some_iff : ∀ key value,
    o.get? key = some value ↔ Holds operations (canonicalKey key) value
  contains_iff : ∀ key, o.contains key = true ↔ Live operations (canonicalKey key)
  /-- A change hands out what a look-up would have answered. -/
  insert_answer : ∀ key value, (o.perform (.insert key value)).1 = (o.perform (.get key)).1
  remove_answer : ∀ key, (o.perform (.remove key)).1 = (o.perform (.get key)).1
  /-- A setting that is there keeps its place, and so does every other one. -/
  overwritten : ∀ key value, o.contains key = true →
    (o.perform (.insert key value)).2.toList =
      o.toList.map fun e => if e.1 = canonicalKey key then (e.1, value) else e
  /-- A setting that is not there goes to the end. -/
  appended : ∀ key value, o.contains key = false →
    (o.perform (.insert key value)).2.toList = o.toList ++ [(canonicalKey key, value)]
  /-- All others stay in order when a setting is taken out. -/
  removed : ∀ key, (o.perform (.remove key)).2.toList =
    o.toList.filter fun e => e.1 ≠ canonicalKey key
  /-- A setting that is made again after it has been taken out goes to the end. -/
  reinserted : ∀ key key' value, canonicalKey key' = canonicalKey key →
    (o.after [.remove key, .insert key' value]).toList =
      (o.toList.filter fun e => e.1 ≠ canonicalKey key) ++ [(canonicalKey key, value)]
  /-- The settings stand in the order in which those that survive have come first. -/
  keys_eq : o.toList.map Prod.fst = ((surviving operations).map Prod.fst).eraseDups
  distinct : (o.toList.map Prod.fst).Nodup
  size_eq : o.size = {spelling | Live operations spelling}.ncard

/-- One change at a time, of options that list no key twice. -/
theorem toList_insert_of_contains (h : o.entries.keys.Nodup) (hkey : o.contains key = true)
    (value : Json) : (o.insert key value).toList =
      o.toList.map fun e => if e.1 = canonicalKey key then (e.1, value) else e :=
  Table.entries_insert_of_mem h (contains_iff.mp hkey) value

theorem toList_insert_of_not_contains (hkey : o.contains key = false) (value : Json) :
    (o.insert key value).toList = o.toList ++ [(canonicalKey key, value)] := by
  have hnew : canonicalKey key ∉ o.entries.keys := by
    rw [← contains_iff, hkey]
    exact Bool.false_ne_true
  exact congrArg Table.entries (Table.insert_of_notMem hnew value)

theorem toList_erase (h : o.entries.keys.Nodup) (key : String) :
    (o.erase key).toList = o.toList.filter fun e => e.1 ≠ canonicalKey key :=
  Table.entries_erase h (canonicalKey key)

theorem contains_erase (h : o.entries.keys.Nodup) {key' : String}
    (hspelled : canonicalKey key' = canonicalKey key) : (o.erase key).contains key' = false := by
  refine eq_false_of_ne_true fun hkey => ?_
  -- what is found under the key would have been left over from what is taken out
  obtain ⟨e, he, hsame⟩ := List.mem_map.mp (contains_iff.mp hkey)
  rw [show (o.erase key).entries.entries = _ from toList_erase h key] at he
  have hne := (List.mem_filter.mp he).2
  simp [hsame, hspelled] at hne

theorem actsAsMap_after (operations : List Operation) :
    (empty.after operations).ActsAsMap operations := by
  have hrecords := records_after operations
  have hdistinct := hrecords.distinct
  exact {
    get?_eq_some_iff := fun key value => get?_after_iff
    contains_iff := fun key => contains_iff.trans mem_keys_after_iff
    insert_answer := fun key value => by rw [perform_insert]; rfl
    remove_answer := fun key => by rw [perform_remove]; rfl
    overwritten := fun key value hkey => by
      rw [perform_insert]
      exact toList_insert_of_contains hdistinct hkey value
    appended := fun key value hkey => by
      rw [perform_insert]
      exact toList_insert_of_not_contains hkey value
    removed := fun key => by
      rw [perform_remove]
      exact toList_erase hdistinct key
    reinserted := fun key key' value hspelled => by
      -- the key is gone when it is set again, so it goes to the end
      have hgone := contains_erase hdistinct hspelled
      show (((empty.after operations).perform (.remove key)).2.perform
        (.insert key' value)).2.toList = _
      rw [perform_remove, perform_insert, toList_insert_of_not_contains hgone, hspelled,
        toList_erase hdistinct]
    keys_eq := hrecords.keys_eq
    distinct := hdistinct
    size_eq := by
      -- keys are listed once each, so there are as many settings as live spellings
      have hlive : {spelling | Live operations spelling} =
          ((empty.after operations).entries.keys.toFinset : Set String) := by
        ext spelling
        simp [mem_keys_after_iff]
      rw [hlive, Set.ncard_coe_finset, List.toFinset_card_of_nodup hdistinct]
      exact (List.length_map _).symm }

/-- **Options are a map of canonical spellings in order of insertion.** After any operations a
look-up finds what was set last under any spelling of its key and has not been taken out since; a
change hands out what a look-up would have found, keeps the place of a setting that is there,
appends one that is not, and leaves all others in order; no spelling is listed twice, and there
are as many settings as spellings that are live. Two sessions that differ in the spelling of keys
only leave the same options and give the same answers. -/
theorem session_as_map :
    (∀ operations, (empty.after operations).ActsAsMap operations) ∧
    ∀ operations operations', List.Forall₂ Operation.SpelledAlike operations operations' →
      empty.after operations = empty.after operations' ∧
        empty.answers operations = empty.answers operations' :=
  ⟨actsAsMap_after, fun _ _ h => session_eq_of_spelledAlike h empty⟩

/-- A session with a setting that is overwritten and one that is taken out and made again. -/
def tuning (shards replicas : String) : List Operation :=
  [.insert shards (.ofNat 1), .insert replicas (.ofNat 2), .insert "SHARDS" (.ofNat 3),
    .insert "pages" (.ofNat 4), .remove " replicas", .get replicas, .insert ":Replicas" (.ofNat 5)]

/-- The first keeps its place, the second goes to the end, whatever the spelling. -/
theorem tuning_as_map :
    let o := empty.after (tuning "shards" "replicas")
    o.toList = [("shards", .ofNat 3), ("pages", .ofNat 4), ("replicas", .ofNat 5)] ∧
      Holds (tuning "shards" "replicas") "shards" (.ofNat 3) ∧
      {spelling | Live (tuning "shards" "replicas") spelling}.ncard = 3 ∧
      empty.after (tuning " :Shards" "REPLICAS") = o ∧
      empty.answers (tuning " :Shards" "REPLICAS") =
        [.value none, .value none, .value (some (.ofNat 1)), .value none,
          .value (some (.ofNat 2)), .value none, .value none] := by
  intro o
  obtain ⟨hmap, hspelled⟩ := session_as_map
  have hsame : List.Forall₂ Operation.SpelledAlike (tuning "shards" "replicas")
      (tuning " :Shards" "REPLICAS") :=
    .cons (.insert (by decide) _) <| .cons (.insert (by decide) _) <| .cons (.insert rfl _) <|
      .cons (.insert rfl _) <| .cons (.remove rfl) <| .cons (.get (by decide)) <|
      .cons (.insert rfl _) .nil
  obtain ⟨hafter, hanswers⟩ := hspelled _ _ hsame
  refine ⟨rfl, ((hmap _).get?_eq_some_iff "shards" _).mp rfl, ?_, hafter.symm, ?_⟩
  · rw [← (hmap _).size_eq]
    rfl
  · rw [← hanswers]
    rfl

end Options

end SearchIndex
