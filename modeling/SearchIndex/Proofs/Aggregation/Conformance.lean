import SearchIndex.Proofs.Aggregation.Tree

/-!
# Which responses can be decoded

A response is decoded exactly if it has the shape that the tree of aggregations asks for
(`Aggregation.Conforms`), whatever the formatter. Where it has not, there may be many
places at fault. `Aggregation.Fault` names them all, each with its position: a list of
numbers, which are in turn the number of a bucket and the number of a child in the order
of registration. Positions are ordered as words are (`Earlier`), so that buckets count
before children and a child counts with everything inside it.

The main result is `Aggregation.decode_conformance`: the error of a failed decoding is the
fault at the first position. It comes from one relation between faults and outcomes,
`ReportsFirst`, which every step of the decoder keeps (`ReportsFirst.mapM`,
`Aggregation.reportsFirst_decode`).
-/

namespace SearchIndex

/-! ### Conforming responses and faults -/

/-- A part of a response has the shape that an aggregation asks for. Nothing is asked of
children that are absent, or whose part of the response is no object. -/
inductive Aggregation.Conforms : Aggregation → Json → Prop where
  /-- A grouping asks for a list of objects, in each of which its children conform. -/
  | grouping {g : Grouping} {children : Aggregations} {raw : Json} {entries : List Json}
      (buckets : raw.member? "buckets" = some (.array entries))
      (objects : ∀ entry ∈ entries, ∃ members, entry = .object members)
      (inside : ∀ members, .object members ∈ entries → ∀ c ∈ children.entries, ∀ payload,
        members.get? c.1 = some (.object payload) → Conforms c.2 (.object payload)) :
      Conforms (.grouping g children) raw
  /-- A filter asks for an object in which its children conform. -/
  | filter {query : Query} {children : Aggregations} {members : Document}
      (inside : ∀ c ∈ children.entries, ∀ payload,
        members.get? c.1 = some (.object payload) → Conforms c.2 (.object payload)) :
      Conforms (.filter query children) (.object members)
  /-- Statistics ask for an object. -/
  | stats {field : String} {members : Document} :
      Conforms (.metric ⟨.stats, field⟩) (.object members)
  /-- Any other metric asks for an object with a value. -/
  | value {m : Metric} {members : Document} {value : Json}
      (kind : m.kind ≠ .stats) (present : members.get? "value" = some value) :
      Conforms (.metric m) (.object members)

/-- What is at fault in a part of a response, and at which position. -/
inductive Aggregation.Fault : Aggregation → Json → List Nat → DecodeFault → Prop where
  | withoutBuckets {g : Grouping} {children : Aggregations} {raw : Json}
      (none : ∀ entries, raw.member? "buckets" ≠ some (.array entries)) :
      Fault (.grouping g children) raw [] (.withoutBuckets g.word)
  | bucketNotAnObject {g : Grouping} {children : Aggregations} {raw entry : Json}
      {entries : List Json} {i : Nat} (buckets : raw.member? "buckets" = some (.array entries))
      (found : entries[i]? = some entry) (none : entry.members? = none) :
      Fault (.grouping g children) raw [i] (.bucketNotAnObject g.word)
  | inBucket {g : Grouping} {children : Aggregations} {raw : Json} {entries : List Json}
      {members payload : Document} {i j : Nat} {name : String} {a : Aggregation}
      {position : List Nat} {fault : DecodeFault}
      (buckets : raw.member? "buckets" = some (.array entries))
      (found : entries[i]? = some (.object members))
      (registered : children.entries[j]? = some (name, a))
      (present : members.get? name = some (.object payload))
      (inside : Fault a (.object payload) position fault) :
      Fault (.grouping g children) raw (i :: j :: position) fault
  | filterNotAnObject {query : Query} {children : Aggregations} {raw : Json}
      (none : raw.members? = none) :
      Fault (.filter query children) raw [] (.notAnObject "filter")
  | inFilter {query : Query} {children : Aggregations} {members payload : Document} {j : Nat}
      {name : String} {a : Aggregation} {position : List Nat} {fault : DecodeFault}
      (registered : children.entries[j]? = some (name, a))
      (present : members.get? name = some (.object payload))
      (inside : Fault a (.object payload) position fault) :
      Fault (.filter query children) (.object members) (j :: position) fault
  | metricNotAnObject {m : Metric} {raw : Json} (none : raw.members? = none) :
      Fault (.metric m) raw [] (.notAnObject m.kind.word)
  | withoutValue {m : Metric} {members : Document} (kind : m.kind ≠ .stats)
      (none : members.get? "value" = none) :
      Fault (.metric m) (.object members) [] (.withoutValue m.kind.word)

/-- One position comes before another: at the first number in which they differ, or by
ending where the other goes on. -/
def Earlier (position position' : List Nat) : Prop :=
  List.Lex (fun i j => i < j) position position'

/-- The fault at the first of all positions at fault. -/
def IsFirst (R : List Nat → DecodeFault → Prop) (position : List Nat) (fault : DecodeFault) :
    Prop :=
  R position fault ∧ ∀ position' fault', R position' fault' → ¬ Earlier position' position

/-! ### Reporting the first fault -/

section Reporting

variable {α β γ : Type} {R R' : List Nat → DecodeFault → Prop} {r : Except Error β}

/-- An outcome answers for faults: it is a success if there are none, and otherwise the
error of the first. -/
def ReportsFirst (R : List Nat → DecodeFault → Prop) : Except Error β → Prop
  | .ok _ => ∀ position fault, ¬ R position fault
  | .error e => ∃ position fault, IsFirst R position fault ∧ e = .decode fault

theorem not_earlier_nil (position : List Nat) : ¬ Earlier position [] := List.not_lex_nil

theorem earlier_cons_iff {i j : Nat} {position position' : List Nat} :
    Earlier (i :: position) (j :: position') ↔ i < j ∨ i = j ∧ Earlier position position' :=
  List.cons_lex_cons_iff

/-- A single fault, at the very beginning. -/
theorem ReportsFirst.error {fault : DecodeFault} (h : R [] fault) :
    ReportsFirst R (.error (.decode fault) : Except Error β) :=
  ⟨[], fault, ⟨h, fun position' _ _ => not_earlier_nil position'⟩, rfl⟩

/-- What is reported depends on which faults there are. -/
theorem ReportsFirst.congr (h : ReportsFirst R r)
    (hR : ∀ position fault, R position fault ↔ R' position fault) : ReportsFirst R' r := by
  have hR' : R = R' := funext fun position => funext fun fault => propext (hR position fault)
  exact hR' ▸ h

/-- What is made of a result has no part in what is reported. -/
theorem ReportsFirst.map (h : ReportsFirst R r) (f : β → γ) : ReportsFirst R (r.map f) := by
  cases r with
  | ok b => exact h
  | error e => exact h

/-- A fault of one element of a list, its position led by the number of the element. -/
def Among (xs : List α) (R : α → List Nat → DecodeFault → Prop) (position : List Nat)
    (fault : DecodeFault) : Prop :=
  ∃ (i : Nat) (x : α) (rest : List Nat),
    xs[i]? = some x ∧ R x rest fault ∧ position = i :: rest

/-- **A traversal reports the first fault** if each of its steps does. -/
theorem ReportsFirst.mapM {xs : List α} {R : α → List Nat → DecodeFault → Prop}
    {step : α → Except Error β} (h : ∀ x ∈ xs, ReportsFirst (R x) (step x)) :
    ReportsFirst (Among xs R) (xs.mapM step) := by
  -- a step that succeeds has nothing at fault
  have hok : ∀ (i : Nat) (x : α) (y : β), xs[i]? = some x → step x = .ok y →
      ∀ position fault, ¬ R x position fault := by
    intro i x y hx hy
    have hstep := h x (List.mem_of_getElem? hx)
    rw [hy] at hstep
    exact hstep
  cases hxs : xs.mapM step with
  | ok ys =>
    -- all steps have succeeded, so no element has a fault
    rintro position fault ⟨i, x, rest, hx, hfault, -⟩
    obtain ⟨y, hy⟩ := Outcome.exists_mapM_eq_ok_iff.mp ⟨ys, hxs⟩ x (List.mem_of_getElem? hx)
    exact hok i x y hx hy rest fault hfault
  | error e =>
    obtain ⟨i, x, hx, hfail, hbefore⟩ := Outcome.exists_of_mapM_eq_error hxs
    have hstep := h x (List.mem_of_getElem? hx)
    rw [hfail] at hstep
    obtain ⟨rest, fault, ⟨hfault, hfirst⟩, rfl⟩ := hstep
    -- the first fault of the first failing element is the first of all
    refine ⟨i :: rest, fault, ⟨⟨i, x, rest, hx, hfault, rfl⟩, ?_⟩, rfl⟩
    rintro position' fault' ⟨j, x', rest', hx', hfault', rfl⟩ hearlier
    rcases earlier_cons_iff.mp hearlier with hlt | ⟨rfl, hrest⟩
    · -- an element before the failing one has succeeded
      obtain ⟨y, hy⟩ := hbefore j x' hlt hx'
      exact hok j x' y hx' hy rest' fault' hfault'
    · -- in the failing element, its own first fault comes first
      obtain rfl : x = x' := Option.some.inj (hx.symm.trans hx')
      exact hfirst rest' fault' hfault' hrest

end Reporting

/-! ### Faults, one level at a time -/

namespace Aggregation

variable {g : Grouping} {query : Query} {children : Aggregations} {raw : Json}
  {members : Document} {position : List Nat} {fault : DecodeFault}

/-- A fault of a child, given the members of the part of the response it is looked up in. -/
def ChildFault (members : Document) (c : String × Aggregation) (position : List Nat)
    (fault : DecodeFault) : Prop :=
  ∃ payload, members.get? c.1 = some (.object payload) ∧
    c.2.Fault (.object payload) position fault

/-- A fault of an entry of a list of buckets. -/
def EntryFault (g : Grouping) (children : Aggregations) (entry : Json) (position : List Nat)
    (fault : DecodeFault) : Prop :=
  (entry.members? = none ∧ position = [] ∧ fault = .bucketNotAnObject g.word) ∨
    ∃ members, entry = .object members ∧
      Among children.entries (ChildFault members) position fault

/-- The faults of a grouping are those of its entries, once the list of them is found. -/
theorem fault_grouping_iff {entries : List Json}
    (buckets : raw.member? "buckets" = some (.array entries)) :
    Among entries (EntryFault g children) position fault ↔
      (grouping g children).Fault raw position fault := by
  constructor
  · -- a fault among the entries is that of an entry, or that of a child inside one
    rintro ⟨i, entry, rest, hentry, ⟨hnone, rfl, rfl⟩ | ⟨members, rfl, hinside⟩, rfl⟩
    · exact .bucketNotAnObject buckets hentry hnone
    · obtain ⟨j, c, rest, hc, ⟨payload, hpayload, hfault⟩, rfl⟩ := hinside
      exact .inBucket buckets hentry hc hpayload hfault
  · -- the other way round, the list of entries is the one that has been found
    intro h
    cases h with
    | withoutBuckets hnone => exact absurd buckets (hnone entries)
    | bucketNotAnObject buckets' hentry hnone =>
      cases buckets.symm.trans buckets'
      exact ⟨_, _, [], hentry, Or.inl ⟨hnone, rfl, rfl⟩, rfl⟩
    | inBucket buckets' hentry hc hpayload hfault =>
      cases buckets.symm.trans buckets'
      exact ⟨_, _, _, hentry, Or.inr ⟨_, rfl, _, _, _, hc, ⟨_, hpayload, hfault⟩, rfl⟩, rfl⟩

/-- The faults of a filter are those of its children. -/
theorem fault_filter_iff :
    Among children.entries (ChildFault members) position fault ↔
      (filter query children).Fault (.object members) position fault := by
  constructor
  · rintro ⟨j, c, rest, hc, ⟨payload, hpayload, hfault⟩, rfl⟩
    exact .inFilter hc hpayload hfault
  · intro h
    cases h with
    | filterNotAnObject hnone => cases hnone
    | inFilter hc hpayload hfault => exact ⟨_, _, _, hc, ⟨_, hpayload, hfault⟩, rfl⟩

/-- There is one fault at most at a position. -/
theorem Fault.unique {a : Aggregation} {fault' : DecodeFault} (h : a.Fault raw position fault)
    (h' : a.Fault raw position fault') : fault = fault' := by
  -- a position spells out the way to its fault, so both have gone the same way
  induction h with
  | withoutBuckets _ => cases h'; rfl
  | bucketNotAnObject _ _ _ => cases h'; rfl
  | inBucket buckets hentry hc hpayload _ ih =>
    -- the same entry, the same child and the same part, and from there by induction
    cases h' with
    | inBucket buckets' hentry' hc' hpayload' h' =>
      cases buckets.symm.trans buckets'
      cases hentry.symm.trans hentry'
      cases hc.symm.trans hc'
      cases hpayload.symm.trans hpayload'
      exact ih h'
  | filterNotAnObject _ => cases h'; rfl
  | inFilter hc hpayload _ ih =>
    cases h' with
    | inFilter hc' hpayload' h' =>
      cases hc.symm.trans hc'
      cases hpayload.symm.trans hpayload'
      exact ih h'
  | metricNotAnObject hnone =>
    cases h' with
    | metricNotAnObject _ => rfl
    | withoutValue _ _ => cases hnone
  | withoutValue _ _ =>
    cases h' with
    | metricNotAnObject hnone => cases hnone
    | withoutValue _ _ => rfl

/-- What conforms has no fault. -/
theorem Fault.not_conforms {a : Aggregation} (h : a.Fault raw position fault) :
    ¬ a.Conforms raw := by
  -- along the position, down to the part of the response that is at fault
  induction h with
  | withoutBuckets hnone =>
    rintro ⟨buckets, -, -⟩
    exact hnone _ buckets
  | bucketNotAnObject buckets hentry hnone =>
    rintro ⟨buckets', objects, -⟩
    cases buckets.symm.trans buckets'
    obtain ⟨members, rfl⟩ := objects _ (List.mem_of_getElem? hentry)
    cases hnone
  | inBucket buckets hentry hc hpayload _ ih =>
    rintro ⟨buckets', -, inside⟩
    cases buckets.symm.trans buckets'
    exact ih (inside _ (List.mem_of_getElem? hentry) _ (List.mem_of_getElem? hc) _ hpayload)
  | filterNotAnObject hnone =>
    rintro ⟨⟩
    cases hnone
  | inFilter hc hpayload _ ih =>
    intro h
    cases h with
    | filter inside => exact ih (inside _ (List.mem_of_getElem? hc) _ hpayload)
  | metricNotAnObject hnone => rintro ⟨⟩ <;> cases hnone
  | withoutValue hkind hnone =>
    intro h
    cases h with
    | stats => exact hkind rfl
    | value _ present => cases hnone.symm.trans present

/-- What has no fault conforms. -/
theorem conforms_of_forall_not_fault (a : Aggregation) (raw : Json)
    (h : ∀ position fault, ¬ a.Fault raw position fault) : a.Conforms raw := by
  induction a using Aggregation.induction generalizing raw with
  | grouping g children ih =>
    -- each way not to conform has a fault of its own, at this level or further down
    cases hbuckets : (raw.member? "buckets").bind Json.items? with
    | none =>
      refine absurd (Fault.withoutBuckets fun entries hentries => ?_) (h _ _)
      rw [Json.bind_items?_eq_some_iff.mpr hentries] at hbuckets
      cases hbuckets
    | some entries =>
      have buckets := Json.bind_items?_eq_some_iff.mp hbuckets
      refine .grouping buckets (fun entry hentry => ?_) (fun members hmembers c hc payload hp => ?_)
      · obtain ⟨i, hi⟩ := List.getElem?_of_mem hentry
        -- the entry is an object, or it is a fault itself
        cases hm : entry.members? with
        | none => exact absurd (Fault.bucketNotAnObject buckets hi hm) (h _ _)
        | some members => exact ⟨members, Json.members?_eq_some_iff.mp hm⟩
      · -- a child that does not conform has a fault, which would be one of the grouping
        obtain ⟨i, hi⟩ := List.getElem?_of_mem hmembers
        obtain ⟨j, hj⟩ := List.getElem?_of_mem hc
        exact ih c hc _ fun position fault hfault => h _ _ (.inBucket buckets hi hj hp hfault)
  | filter query children ih =>
    cases hm : raw.members? with
    | none => exact absurd (Fault.filterNotAnObject hm) (h _ _)
    | some members =>
      obtain rfl := Json.members?_eq_some_iff.mp hm
      refine .filter fun c hc payload hp => ?_
      obtain ⟨j, hj⟩ := List.getElem?_of_mem hc
      exact ih c hc _ fun position fault hfault => h _ _ (.inFilter hj hp hfault)
  | metric m =>
    cases hm : raw.members? with
    | none => exact absurd (Fault.metricNotAnObject hm) (h _ _)
    | some members =>
      obtain rfl := Json.members?_eq_some_iff.mp hm
      obtain ⟨kind, field⟩ := m
      -- statistics ask for nothing, all other metrics for a value
      by_cases hkind : kind = .stats
      · subst hkind
        exact .stats
      · cases hv : members.get? "value" with
        | none => exact absurd (Fault.withoutValue hkind hv) (h _ _)
        | some value => exact .value hkind hv

/-! ### The decoder -/

/-- The children report their first fault, if each child does on its own part. -/
theorem reportsFirst_decodeChildren {formatter : Formatter}
    {children : List (String × Aggregation)}
    (ih : ∀ c ∈ children, ∀ raw, ReportsFirst (c.2.Fault raw) (c.2.decode formatter raw))
    (members : Document) :
    ReportsFirst (Among children (ChildFault members))
      (decodeChildren formatter children members) := by
  rw [decodeChildren_eq_mapM]
  refine ReportsFirst.map (ReportsFirst.mapM fun c hc => ?_) _
  cases h : members.get? c.1 with
  | none =>
    -- a child without a part is passed over, and has no fault
    rw [decodeChild_of_absent h]
    rintro position fault ⟨payload, hpayload, -⟩
    cases h.symm.trans hpayload
  | some value =>
    rw [decodeChild_of_present h]
    refine ReportsFirst.map ?_ _
    cases value with
    | object payload =>
      refine (ih c hc (.object payload)).congr fun position fault =>
        ⟨fun hf => ⟨payload, h, hf⟩, ?_⟩
      -- the part that the fault is about is the one that has been decoded
      rintro ⟨payload', hpayload', hf⟩
      cases h.symm.trans hpayload'
      exact hf
    | _ =>
      -- a value that is no object is not looked into
      rw [decodePart_of_scalar rfl]
      rintro position fault ⟨payload, hpayload, -⟩
      cases h.symm.trans hpayload

/-- An entry reports its first fault: it is no object, or a child of it is at fault. -/
theorem reportsFirst_decodeBucket {formatter : Formatter} (g : Grouping)
    (ih : ∀ c ∈ children.entries, ∀ raw,
      ReportsFirst (c.2.Fault raw) (c.2.decode formatter raw)) (entry : Json) :
    ReportsFirst (EntryFault g children entry)
      (Bucket.decode g.word (decodeChildren formatter children.entries) entry) := by
  rw [Bucket.decode_eq]
  cases hm : entry.members? with
  | none => exact ReportsFirst.error (Or.inl ⟨hm, rfl, rfl⟩)
  | some members =>
    obtain rfl := Json.members?_eq_some_iff.mp hm
    have hchildren := reportsFirst_decodeChildren ih members
    refine (hchildren.map (Bucket.ofMembers members)).congr fun position fault => ?_
    refine ⟨fun h => Or.inr ⟨members, rfl, h⟩, ?_⟩
    rintro (⟨hnone, -, -⟩ | ⟨members', heq, h⟩)
    · cases hnone
    · cases heq
      exact h

/-- **Decoding reports the first fault**, at every level of the tree. -/
theorem reportsFirst_decode (formatter : Formatter) (a : Aggregation) (raw : Json) :
    ReportsFirst (a.Fault raw) (a.decode formatter raw) := by
  induction a using Aggregation.induction generalizing raw with
  | grouping g children ih =>
    rw [decode_grouping]
    cases hbuckets : (raw.member? "buckets").bind Json.items? with
    | none =>
      refine ReportsFirst.error (.withoutBuckets fun entries hentries => ?_)
      rw [Json.bind_items?_eq_some_iff.mpr hentries] at hbuckets
      cases hbuckets
    | some entries =>
      have hentries : ReportsFirst (Among entries (EntryFault g children)) (entries.mapM
          (Bucket.decode g.word (decodeChildren formatter children.entries))) :=
        ReportsFirst.mapM fun entry _ => reportsFirst_decodeBucket g ih entry
      -- the faults of the entries are those of the grouping
      exact (hentries.map Decoded.buckets).congr fun position fault =>
        fault_grouping_iff (Json.bind_items?_eq_some_iff.mp hbuckets)
  | filter query children ih =>
    rw [decode_filter]
    cases hm : raw.members? with
    | none => exact ReportsFirst.error (.filterNotAnObject hm)
    | some members =>
      obtain rfl := Json.members?_eq_some_iff.mp hm
      have hchildren := reportsFirst_decodeChildren ih members
      exact (hchildren.map _).congr fun position fault => fault_filter_iff
  | metric m =>
    rw [decode, Metric.decode]
    cases hm : raw.members? with
    | none => exact ReportsFirst.error (.metricNotAnObject hm)
    | some members =>
      obtain rfl := Json.members?_eq_some_iff.mp hm
      dsimp only
      -- statistics are never at fault, once there is an object
      split
      · next hkind =>
        rintro position fault hfault
        cases hfault with
        | metricNotAnObject hnone => cases hnone
        | withoutValue hkind' _ => exact hkind' hkind
      · next hkind =>
        cases hv : members.get? "value" with
        | none => exact ReportsFirst.error (.withoutValue hkind hv)
        | some value =>
          -- a value is all that is asked for, whatever the formatter makes of it
          rintro position fault hfault
          cases hfault with
          | metricNotAnObject hnone => cases hnone
          | withoutValue _ hnone => cases hv.symm.trans hnone

/-- **What can be decoded, and what is reported otherwise.** Decoding succeeds exactly if
the response conforms, whatever the formatter does. It fails exactly with the fault at the
first position at fault, as an error of decoding. -/
theorem decode_conformance (formatter : Formatter) (a : Aggregation) (raw : Json) :
    ((∃ r, a.decode formatter raw = .ok r) ↔ a.Conforms raw) ∧
    ∀ e, a.decode formatter raw = .error e ↔
      ∃ position fault, IsFirst (a.Fault raw) position fault ∧ e = .decode fault := by
  have hreports := reportsFirst_decode formatter a raw
  -- reporting says what a success excludes and what an error names
  cases hr : a.decode formatter raw with
  | ok r =>
    rw [hr] at hreports
    refine ⟨⟨fun _ => conforms_of_forall_not_fault a raw hreports, fun _ => ⟨r, rfl⟩⟩, fun e => ?_⟩
    refine ⟨fun h => (by cases h), ?_⟩
    rintro ⟨position, fault, ⟨hfault, -⟩, -⟩
    exact absurd hfault (hreports position fault)
  | error e =>
    rw [hr] at hreports
    obtain ⟨position, fault, hfirst, rfl⟩ := hreports
    refine ⟨⟨fun h => (by obtain ⟨r, hr⟩ := h; cases hr), fun h => ?_⟩, fun e => ⟨fun h => ?_, ?_⟩⟩
    · exact absurd h hfirst.1.not_conforms
    · exact ⟨position, fault, hfirst, (Except.error.inj h).symm⟩
    · -- of two positions that nothing comes before, neither comes before the other
      rintro ⟨position', fault', hfirst', rfl⟩
      obtain rfl : position = position' :=
        List.le_antisymm (hfirst.2 position' fault' hfirst'.1) (hfirst'.2 position fault hfirst.1)
      rw [hfirst.1.unique hfirst'.1]

end Aggregation

end SearchIndex
