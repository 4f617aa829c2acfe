import SearchIndex.Aggregation.Response
import SearchIndex.Aggregation.Request
import SearchIndex.Aggregation.Session
import SearchIndex.Proofs.Aggregation.Interval
import SearchIndex.Proofs.Call
import SearchIndex.Proofs.Outcome
import SearchIndex.Proofs.Table

/-!
# Aggregations throughout a session

An aggregation comes out of a constructor and goes through calls, some of which are refused;
its children have a history of the same sort. `Aggregation.Built` says which trees this leads
to, and `Aggregation.WellFormed` what the engine asks of every node in them. The main result,
`Aggregation.built_sound`, is that nothing else can be built, and that a call that is refused
might as well not have been made.

Both halves rest on `Aggregation.call_performs`: a call, which writes in place, does what the
change it is made for says (`Aggregation.change`), and this is shown setter by setter. So it is
enough to look at changes, which are refused for a parameter or keep the tree well-formed
(`Aggregation.change_checked`).
-/

namespace SearchIndex

/-! ### Calls and changes -/

/-- Assigning an interval does what setting it says. -/
theorem DateHistogram.assignInterval_performs (text : Option String) :
    (assignInterval text).Performs (fun g => g.setInterval text) := by
  intro g
  dsimp only
  cases text with
  | none => rfl
  | some t =>
    rw [assignInterval, setInterval]
    cases Interval.isInterval t <;> rfl

/-- Assigning a width does what setting it says. -/
theorem Histogram.assignInterval_performs (interval : Quantity) :
    (assignInterval interval).Performs (fun g => g.setInterval interval) := by
  intro g
  dsimp only
  rw [assignInterval, setInterval]
  cases interval.isPositive <;> rfl

/-- Assigning a size does what setting it says. -/
theorem Terms.assignSize_performs (size : Option Nat) :
    (assignSize size).Performs (fun g => g.setSize size) := by
  intro g
  dsimp only
  rw [assignSize, setSize]
  split <;> rfl

/-- Pushing a range does what adding it says. -/
theorem Ranges.push_performs (entry : RangeEntry) :
    (push entry).Performs (fun g => g.add entry) := by
  intro g
  dsimp only
  -- the bounds that are there decide which checks are made
  obtain ⟨key, lower, upper⟩ := entry
  cases lower with
  | none => cases upper <;> rfl
  | some lower =>
    cases upper with
    | none => rfl
    | some upper =>
      simp only [push, add]
      cases lower.above upper <;> rfl

/-- Adding a child does what registering it says. -/
theorem Aggregations.add_performs (name : String) (a : Aggregation) :
    (add name a).Performs (fun as => Aggregations.register as name a) := by
  intro as
  dsimp only
  rw [add, register]
  cases allowsName name <;> rfl

/-- Each parameter is set as its change says, in the grouping that has it. -/
theorem Grouping.call_performs (c : Change) : (call c).Performs (fun g => g.change c) := by
  intro g
  cases g <;> cases c
  case dateHistogram.interval g text =>
    exact (DateHistogram.assignInterval_performs text).onPart g Grouping.dateHistogram
  case histogram.width g interval =>
    exact (Histogram.assignInterval_performs interval).onPart g Grouping.histogram
  case terms.size g n => exact (Terms.assignSize_performs n).onPart g Grouping.terms
  case ranges.range g entry => exact (Ranges.push_performs entry).onPart g Grouping.ranges
  -- the other parameters are set without a check
  all_goals rfl

/-- **A call does what its change says**, and writes nothing if the change is refused. -/
theorem Aggregation.call_performs (c : Change) : (call c).Performs (fun a => a.change c) := by
  intro a
  cases a with
  | grouping g children =>
    cases c
    -- a child is added to the registry, and all else is a matter of the grouping
    case child name a => exact (Aggregations.add_performs name a).onPart children (grouping g)
    all_goals exact (Grouping.call_performs _).onPart g (fun g => grouping g children)
  | filter query children =>
    -- a filter only takes children
    cases c
    case child name a =>
      exact (Aggregations.add_performs name a).onPart children (filter query)
    all_goals rfl
  | metric m => cases c <;> rfl

/-! ### What the engine asks of a node -/

/-- The interval is not set, or written as one. -/
def DateHistogram.WellFormed (g : DateHistogram) : Prop :=
  ∀ text, g.interval = some text → Interval.Written text

/-- The width is a finite number, and it lies above zero in the order of the values. -/
def Histogram.WellFormed (g : Histogram) : Prop :=
  ∃ width : Binary64, g.interval = .finite width ∧ Binary64.zero.key < width.key

/-- The size is not set, or at least one. -/
def Terms.WellFormed (g : Terms) : Prop := ∀ n, g.size = some n → 1 ≤ n

/-- The range has a bound, and its lower bound does not lie above the upper one. -/
def RangeEntry.WellFormed (entry : RangeEntry) : Prop :=
  (entry.lower.isSome ∨ entry.upper.isSome) ∧
    ∀ lower upper, entry.lower = some lower → entry.upper = some upper →
      lower.above upper = false

/-- All ranges of the aggregation are well-formed. -/
def Ranges.WellFormed (g : Ranges) : Prop := ∀ entry ∈ g.entries, entry.WellFormed

/-- The parameters are such as the engine accepts. -/
def Grouping.WellFormed : Grouping → Prop
  | .dateHistogram g => g.WellFormed
  | .histogram g => g.WellFormed
  | .terms g => g.WellFormed
  | .ranges g => g.WellFormed

/-- The names of children are distinct, not empty, and not among those that a bucket uses for
itself. -/
structure Aggregations.WellNamed (as : Aggregations) : Prop where
  distinct : as.keys.Nodup
  allowed : ∀ name ∈ as.keys, name ≠ "" ∧ name ∉ ["key", "key_as_string", "doc_count"]

/-- Every node of the tree is such as the engine accepts. -/
inductive Aggregation.WellFormed : Aggregation → Prop where
  | grouping {g : Grouping} {children : Aggregations} (parameters : g.WellFormed)
      (names : children.WellNamed) (inside : ∀ c ∈ children.entries, WellFormed c.2) :
      WellFormed (.grouping g children)
  | filter {query : Query} {children : Aggregations} (names : children.WellNamed)
      (inside : ∀ c ∈ children.entries, WellFormed c.2) : WellFormed (.filter query children)
  | metric (m : Metric) : WellFormed (.metric m)

/-! ### One change -/

/-- The outcome is a value with a property, or the refusal of a parameter. -/
def Outcome.Checked {α : Type} (P : α → Prop) : Except Error α → Prop
  | .ok a => P a
  | .error e => ∃ fault, e = .validation fault

/-- What is made of a checked outcome is checked, if it keeps the property. -/
theorem Outcome.Checked.map {α β : Type} {P : α → Prop} {Q : β → Prop} {f : α → β}
    {r : Except Error α} (h : Checked P r) (hf : ∀ a, P a → Q (f a)) : Checked Q (r.map f) := by
  cases r with
  | ok a => exact hf a h
  | error e => exact h

open Outcome (Checked)

/-- An interval that is set is written as one. -/
theorem DateHistogram.setInterval_checked (g : DateHistogram) (text : Option String) :
    Checked WellFormed (g.setInterval text) := by
  cases text with
  | none => exact fun t ht => by cases ht
  | some t =>
    rw [setInterval]
    split
    · next hwritten =>
      rintro _ ⟨⟩
      exact Interval.isInterval_iff.mp hwritten
    · exact ⟨_, rfl⟩

/-- A width that is set is a number above zero. -/
theorem Histogram.setInterval_checked (g : Histogram) (interval : Quantity) :
    Checked WellFormed (g.setInterval interval) := by
  rw [setInterval]
  cases interval with
  | finite width =>
    split
    · next hpositive => exact ⟨width, rfl, of_decide_eq_true hpositive⟩
    · -- a number that is not above zero is refused
      exact ⟨_, rfl⟩
  | infinite negative =>
    -- so is what is no number or not finite
    exact ⟨_, rfl⟩
  | notANumber => exact ⟨_, rfl⟩

/-- A size that is set is at least one. -/
theorem Terms.setSize_checked (g : Terms) (size : Option Nat) :
    Checked WellFormed (g.setSize size) := by
  rw [setSize]
  split
  · exact ⟨_, rfl⟩
  · next hsize =>
    intro n hn
    exact Nat.one_le_iff_ne_zero.mpr fun hzero => hsize (hzero ▸ hn)

/-- A range that is added is well-formed, and those before it stay. -/
theorem Ranges.add_checked (g : Ranges) (entry : RangeEntry) :
    Checked (fun g' => g.WellFormed → g'.WellFormed) (g.add entry) := by
  -- there is one list that accepted ranges lead to
  have hadd : entry.WellFormed → Checked (fun g' => g.WellFormed → g'.WellFormed)
      (.ok { g with entries := g.entries ++ [entry] }) := by
    intro hentry hbefore e he
    rcases List.mem_append.mp he with he | he
    · exact hbefore e he
    · exact List.mem_singleton.mp he ▸ hentry
  obtain ⟨key, lower, upper⟩ := entry
  cases lower with
  | none =>
    cases upper with
    | none => exact ⟨_, rfl⟩
    | some upper => exact hadd ⟨Or.inr rfl, fun l u hl _ => by cases hl⟩
  | some lower =>
    cases upper with
    | none => exact hadd ⟨Or.inl rfl, fun l u _ hu => by cases hu⟩
    | some upper =>
      simp only [add]
      -- only two bounds are compared with each other
      split
      · exact ⟨_, rfl⟩
      · next habove =>
        refine hadd ⟨Or.inl rfl, fun l u hl hu => ?_⟩
        obtain rfl := Option.some.inj hl
        obtain rfl := Option.some.inj hu
        exact eq_false_of_ne_true habove

/-- A parameter is checked by the grouping that has it. -/
theorem Grouping.change_checked (g : Grouping) (c : Change) :
    Checked (fun g' => g.WellFormed → g'.WellFormed) (g.change c) := by
  cases g <;> cases c
  case dateHistogram.interval g text => exact (g.setInterval_checked text).map fun _ h _ => h
  case histogram.width g interval => exact (g.setInterval_checked interval).map fun _ h _ => h
  case terms.size g n => exact (g.setSize_checked n).map fun _ h _ => h
  case ranges.range g entry => exact (g.add_checked entry).map fun _ => id
  -- nothing is asked of the other parameters
  all_goals exact id

/-- The children have names that are allowed, and are well-formed themselves. -/
structure Aggregations.WellFormed (as : Aggregations) : Prop where
  names : as.WellNamed
  inside : ∀ c ∈ as.entries, c.2.WellFormed

/-- A child is registered under a name that is allowed, beside or in place of the others. -/
theorem Aggregations.register_checked (as : Aggregations) (name : String) (a : Aggregation) :
    Checked (fun as' => Aggregations.WellFormed as → a.WellFormed → Aggregations.WellFormed as')
      (Aggregations.register as name a) := by
  rw [register]
  split
  · next hallowed =>
    have hname : name ≠ "" ∧ name ∉ ["key", "key_as_string", "doc_count"] := by
      simpa [allowsName, reservedNames] using hallowed
    intro before child
    refine ⟨⟨Table.nodup_keys_insert before.names.distinct name a, fun n hn => ?_⟩,
      fun c hc => ?_⟩
    · -- the new name is allowed, and so were the others
      rcases Table.mem_keys_insert.mp hn with rfl | hn
      · exact hname
      · exact before.names.allowed n hn
    · -- the new child is well-formed, and so were the others
      rcases Table.mem_entries_insert hc with rfl | hc
      · exact child
      · exact before.inside c hc
  · -- a name that is not allowed is refused
    exact ⟨_, rfl⟩

/-- **One change** makes a well-formed tree of a well-formed one, or is refused. -/
theorem Aggregation.change_checked (a : Aggregation) (c : Change) :
    Checked (fun a' => a.WellFormed → (∀ name b, c = .child name b → b.WellFormed) →
      a'.WellFormed) (a.change c) := by
  cases a with
  | grouping g children =>
    -- a child leaves the parameters as they are, and a parameter the children
    cases c
    case child name b =>
      refine (Aggregations.register_checked children name b).map ?_
      rintro children' hkept (⟨parameters, names, inside⟩ | _ | _) child
      have after := hkept ⟨names, inside⟩ (child name b rfl)
      exact .grouping parameters after.names after.inside
    all_goals
      refine (g.change_checked _).map ?_
      rintro g' hkept (⟨parameters, names, inside⟩ | _ | _) -
      exact .grouping (hkept parameters) names inside
  | filter query children =>
    cases c
    case child name b =>
      refine (Aggregations.register_checked children name b).map ?_
      rintro children' hkept (_ | ⟨names, inside⟩ | _) child
      have after := hkept ⟨names, inside⟩ (child name b rfl)
      exact .filter after.names after.inside
    all_goals exact fun h _ => h
  | metric m => cases c <;> exact fun h _ => h

/-! ### A whole session -/

/-- The aggregations that constructors and calls lead to. A call may be refused, and a child
that is registered has been built in the same way. -/
inductive Aggregation.Built : Aggregation → Prop where
  | dateHistogram (field : String) : Built (.dateHistogram field)
  | histogram {field : String} {interval : Quantity} {a : Aggregation}
      (made : Aggregation.histogram field interval = .ok a) : Built a
  | terms (field : String) : Built (.terms field)
  | ranges (field : String) : Built (.ranges field)
  | filter (query : Query) : Built (.filter query .empty)
  | metric (m : Metric) : Built (.metric m)
  | call {a : Aggregation} {c : Change} (built : Built a)
      (child : ∀ name b, c = .child name b → Built b) : Built ((Aggregation.call c).after a)

theorem Aggregations.wellNamed_empty : WellNamed Table.empty :=
  ⟨List.nodup_nil, fun _ h => absurd h List.not_mem_nil⟩

/-- A grouping without children is well-formed if its parameters are. -/
theorem Grouping.WellFormed.childless {g : Grouping} (h : g.WellFormed) :
    (Aggregation.grouping g .empty).WellFormed :=
  .grouping h Aggregations.wellNamed_empty fun _ hc => absurd hc List.not_mem_nil

/-- The constructor that checks refuses what a change would refuse. -/
theorem Aggregation.histogram_checked (field : String) (interval : Quantity) :
    Checked WellFormed (histogram field interval) :=
  (Histogram.setInterval_checked ⟨field, interval, none⟩ interval).map fun g h =>
    Grouping.WellFormed.childless (g := .histogram g) h

/-- **Whatever is built is well-formed.** -/
theorem Aggregation.Built.wellFormed {a : Aggregation} (h : a.Built) : a.WellFormed := by
  -- over the history of the tree; a child that is registered has one of its own
  induction h with
  | dateHistogram field =>
    have hunset : Grouping.WellFormed (.dateHistogram ⟨field, none, none, none⟩) :=
      fun text h => by cases h
    exact hunset.childless
  | @histogram field interval a made =>
    have hchecked := Aggregation.histogram_checked field interval
    rw [made] at hchecked
    exact hchecked
  | terms field =>
    have hunset : Grouping.WellFormed (.terms ⟨field, none, none⟩) := fun n h => by cases h
    exact hunset.childless
  | ranges field =>
    have hnone : Grouping.WellFormed (.ranges ⟨field, []⟩) :=
      fun entry h => absurd h List.not_mem_nil
    exact hnone.childless
  | filter query =>
    exact .filter Aggregations.wellNamed_empty fun _ hc => absurd hc List.not_mem_nil
  | metric m => exact .metric m
  | @call a c _ _ ih ihChild =>
    -- a call that is refused leaves the tree that there was, any other the changed one
    rcases (Aggregation.call_performs c).after_eq (s := a) with hsame | hchanged
    · rw [hsame]
      exact ih
    · have hchecked := Aggregation.change_checked a c
      rw [hchanged] at hchecked
      exact hchecked ih ihChild

/-- **Whatever the history of an aggregation, every node of it is well-formed**, and a call
that is refused has named a fault of a parameter and left the aggregation as it was, in what it
sends and in what it reads out of any response. A constructor refuses for the same reason. -/
theorem Aggregation.built_sound {a : Aggregation} (h : a.Built) :
    a.WellFormed ∧
      (∀ field interval e, histogram field interval = .error e →
        ∃ fault, e = .validation fault) ∧
      ∀ c e, (call c).outcome a = .error e →
        (∃ fault, e = .validation fault) ∧
          ((call c).after a).render = a.render ∧
          ∀ formatter raw, ((call c).after a).decode formatter raw = a.decode formatter raw := by
  refine ⟨h.wellFormed, fun field interval e he => ?_, fun c e he => ?_⟩
  · -- a constructor is refused for its parameter
    have hchecked := histogram_checked field interval
    rwa [he] at hchecked
  · -- a call that is refused has changed nothing, so what follows from the tree is the same
    have hperforms := call_performs c
    have hchecked := change_checked a c
    rw [hperforms.outcome_eq_error_iff.mp he] at hchecked
    have hsame := hperforms.after_of_error he
    exact ⟨hchecked, congrArg render hsame, fun formatter raw =>
      congrArg (fun b => b.decode formatter raw) hsame⟩

/-- A tree with a refused call in its history, on which a further one is refused. -/
theorem Aggregation.built_sound_by_author :
    let weekly := (call (.interval (some "1w"))).after (dateHistogram "date")
    let tree := (call (.child "by_author" (terms "author"))).after
      ((call (.interval (some "w1"))).after weekly)
    (call (.child "key" weekly)).outcome tree = .error (.validation (.reservedName "key")) ∧
      tree.WellFormed ∧ ((call (.child "key" weekly)).after tree).render = tree.render := by
  intro weekly tree
  -- the history of the tree, one call after the other
  have hweekly : weekly.Built := .call (.dateHistogram "date") fun _ _ h => by cases h
  have hrefused : ((call (.interval (some "w1"))).after weekly).Built :=
    .call hweekly fun _ _ h => by cases h
  have htree : tree.Built := .call hrefused fun name b h => by
    cases h
    exact .terms "author"
  have hkey : (call (.child "key" weekly)).outcome tree =
      .error (.validation (.reservedName "key")) := rfl
  obtain ⟨hwell, -, hafter⟩ := built_sound htree
  exact ⟨hkey, hwell, (hafter _ _ hkey).2.1⟩

end SearchIndex
