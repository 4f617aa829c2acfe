import SearchIndex.Aggregation.Response
import SearchIndex.Proofs.Outcome.Traversal

/-!
# Decoding along the tree of aggregations

Decoding goes down two trees at once, that of the aggregations and that of the response.
This module fixes how the theory follows it:

* `Aggregation.induction` — what passes from the children of an aggregation to itself holds
  of every aggregation;
* `Aggregation.decodePart` — what an aggregation makes of the part of a response that bears
  its name, whether that is an object or a final value;
* `Aggregation.decode_grouping_eq_ok_iff`, `Aggregation.decode_filter_eq_ok_iff`,
  `Aggregation.decodeChildren_eq_mapM` — what a successful decoding has gone through, and
  the order in which the children are taken.
-/

namespace SearchIndex

/-! ### Induction -/

/-- A child is smaller than the registry it stands in, so it may be recursed on. -/
theorem Aggregation.sizeOf_lt_of_mem {children : Aggregations} {c : String × Aggregation}
    (hc : c ∈ children.entries) : sizeOf c.2 < sizeOf children := by
  obtain ⟨entries⟩ := children
  obtain ⟨name, a⟩ := c
  have hlt := List.sizeOf_lt_of_mem hc
  simp only [Prod.mk.sizeOf_spec, Table.mk.sizeOf_spec] at hlt ⊢
  omega

/-- **Induction over an aggregation**, from its children to itself. -/
theorem Aggregation.induction {motive : Aggregation → Prop}
    (grouping : ∀ g (children : Aggregations), (∀ c ∈ children.entries, motive c.2) →
      motive (.grouping g children))
    (filter : ∀ query (children : Aggregations), (∀ c ∈ children.entries, motive c.2) →
      motive (.filter query children))
    (metric : ∀ m, motive (.metric m)) (a : Aggregation) : motive a :=
  match a with
  | .grouping g children => grouping g children fun c hc =>
      have := Aggregation.sizeOf_lt_of_mem hc
      Aggregation.induction grouping filter metric c.2
  | .filter query children => filter query children fun c hc =>
      have := Aggregation.sizeOf_lt_of_mem hc
      Aggregation.induction grouping filter metric c.2
  | .metric m => metric m
termination_by sizeOf a

/-! ### Parts of a response -/

/-- A value has members exactly if it is an object, and these are its members. -/
theorem Json.members?_eq_some_iff {value : Json} {members : Document} :
    value.members? = some members ↔ value = .object members := by
  cases value <;> simp [members?]

theorem Json.items?_eq_some_iff {value : Json} {items : List Json} :
    value.items? = some items ↔ value = .array items := by
  cases value <;> simp [items?]

theorem Json.string?_eq_some_iff {value : Json} {s : String} :
    value.string? = some s ↔ value = .string s := by
  cases value <;> simp [string?]

/-- A value is a natural number exactly if it is the number that is written for it. -/
theorem Json.nat?_eq_some_iff {value : Json} {n : Nat} :
    value.nat? = some n ↔ value = .ofNat n := by
  cases value with
  | number x =>
    cases x with
    | int i =>
      -- an integer is a natural number if it is not negative
      simp only [nat?, ofNat, Option.ite_none_right_eq_some, Option.some.injEq, number.injEq,
        Number.int.injEq]
      omega
    | real x => simp [nat?, ofNat]
  | _ => simp [nat?, ofNat]

theorem Json.bind_items?_eq_some_iff {value : Option Json} {items : List Json} :
    value.bind Json.items? = some items ↔ value = some (.array items) := by
  simp [Option.bind_eq_some_iff, items?_eq_some_iff]

/-- What an aggregation makes of the part of a response that bears its name: an object it
decodes, and anything else is a value of its field already. -/
def Aggregation.decodePart (formatter : Formatter) (a : Aggregation) : Json → Except Error Decoded
  | .object members => a.decode formatter (.object members)
  | value => .ok (.value (formatter a.field? value))

@[simp] theorem Aggregation.decodePart_object (formatter : Formatter) (a : Aggregation)
    (members : Document) :
    a.decodePart formatter (.object members) = a.decode formatter (.object members) := rfl

/-- What is no object is a value, which only the formatter looks at. -/
theorem Aggregation.decodePart_of_scalar {value : Json} (h : value.members? = none)
    (formatter : Formatter) (a : Aggregation) :
    a.decodePart formatter value = .ok (.value (formatter a.field? value)) := by
  cases value <;> first | rfl | cases h

/-! ### Groupings, filters and their buckets -/

/-- An entry must be an object, and its bucket is made of the results of the children. -/
theorem Bucket.decode_eq (type : String)
    (children : Document → Except Error (List (String × Decoded))) (entry : Json) :
    Bucket.decode type children entry =
      (Outcome.require (.decode (.bucketNotAnObject type)) entry.members?).bind (fun members =>
        (children members).map (Bucket.ofMembers members)) := by
  rw [Bucket.decode]
  cases entry.members? <;> rfl

/-- **A bucket has been made of an object and of the results of its children.** -/
theorem Bucket.decode_eq_ok_iff {type : String} {entry : Json} {b : Bucket}
    {children : Document → Except Error (List (String × Decoded))} :
    Bucket.decode type children entry = .ok b ↔ ∃ members results,
      entry = .object members ∧ children members = .ok results ∧
        Bucket.ofMembers members results = b := by
  simp only [Bucket.decode_eq, Outcome.bind_eq_ok_iff, Outcome.require_eq_ok_iff,
    Json.members?_eq_some_iff, Outcome.map_eq_ok_iff, exists_and_left]

/-- A bucket without the key that only the entries of a list have. -/
def Bucket.withoutKey (b : Bucket) : Bucket := { b with key := .null, keyAsString := none }

namespace Aggregation

variable {formatter : Formatter} {raw : Json} {r : Decoded} {children : Aggregations}

/-- A grouping asks for a list and decodes it entry by entry. -/
theorem decode_grouping (formatter : Formatter) (g : Grouping) (children : Aggregations)
    (raw : Json) :
    (grouping g children).decode formatter raw =
      (Outcome.require (.decode (.withoutBuckets g.word))
        ((raw.member? "buckets").bind Json.items?)).bind (fun entries =>
          (entries.mapM (Bucket.decode g.word
            (decodeChildren formatter children.entries))).map .buckets) := by
  obtain ⟨registered⟩ := children
  rw [decode]
  cases (raw.member? "buckets").bind Json.items? <;> rfl

/-- Once the list is known, decoding a grouping is traversing it. -/
theorem decode_grouping_of_entries {g : Grouping} {entries : List Json}
    (h : raw.member? "buckets" = some (.array entries)) :
    (grouping g children).decode formatter raw = (entries.mapM
      (Bucket.decode g.word (decodeChildren formatter children.entries))).map .buckets := by
  rw [decode_grouping, Json.bind_items?_eq_some_iff.mpr h]
  rfl

/-- A filter asks for an object and makes its only bucket of it, without a key. -/
theorem decode_filter (formatter : Formatter) (query : Query) (children : Aggregations)
    (raw : Json) :
    (filter query children).decode formatter raw =
      (Outcome.require (.decode (.notAnObject "filter")) raw.members?).bind (fun members =>
        (decodeChildren formatter children.entries members).map (fun results =>
          .bucket (Bucket.ofMembers members results).withoutKey)) := by
  obtain ⟨registered⟩ := children
  rw [decode]
  cases raw.members? <;> rfl

/-- **A grouping has made one bucket of every entry.** -/
theorem decode_grouping_eq_ok_iff {g : Grouping} :
    (grouping g children).decode formatter raw = .ok r ↔ ∃ entries,
      raw.member? "buckets" = some (.array entries) ∧ ∃ buckets,
      List.Forall₂ (fun entry b =>
        Bucket.decode g.word (decodeChildren formatter children.entries) entry = .ok b)
        entries buckets ∧
      .buckets buckets = r := by
  simp only [decode_grouping, Outcome.bind_eq_ok_iff, Outcome.require_eq_ok_iff,
    Json.bind_items?_eq_some_iff, Outcome.map_eq_ok_iff, Outcome.mapM_eq_ok_iff]

/-- **A filter has made one bucket of its part of the response.** -/
theorem decode_filter_eq_ok_iff {query : Query} :
    (filter query children).decode formatter raw = .ok r ↔ ∃ members,
      raw = .object members ∧ ∃ results,
      decodeChildren formatter children.entries members = .ok results ∧
      .bucket (Bucket.ofMembers members results).withoutKey = r := by
  simp only [decode_filter, Outcome.bind_eq_ok_iff, Outcome.require_eq_ok_iff,
    Json.members?_eq_some_iff, Outcome.map_eq_ok_iff]

/-! ### Children -/

/-- What a registered aggregation adds to the results, given the members of the part of the
response that its parent decodes: nothing where its name is missing. -/
def decodeChild (formatter : Formatter) (members : Document) (c : String × Aggregation) :
    Except Error (Option (String × Decoded)) :=
  match members.get? c.1 with
  | none => .ok none
  | some value => (c.2.decodePart formatter value).map (fun result => some (c.1, result))

variable {members : Document} {c : String × Aggregation}

/-- A child that is absent adds nothing, and does not fail. -/
theorem decodeChild_of_absent (h : members.get? c.1 = none) :
    decodeChild formatter members c = .ok none := by
  rw [decodeChild, h]

/-- A child that is present adds what it makes of its part, under its own name. -/
theorem decodeChild_of_present {value : Json} (h : members.get? c.1 = some value) :
    decodeChild formatter members c =
      (c.2.decodePart formatter value).map (fun result => some (c.1, result)) := by
  rw [decodeChild, h]

/-- A first child that is absent is skipped. -/
theorem decodeChildren_cons_of_absent (h : members.get? c.1 = none)
    (rest : List (String × Aggregation)) :
    decodeChildren formatter (c :: rest) members = decodeChildren formatter rest members := by
  obtain ⟨name, a⟩ := c
  rw [decodeChildren, h]

/-- A first child that is present is decoded before the rest, and its result stands in front. -/
theorem decodeChildren_cons_of_present {value : Json} (h : members.get? c.1 = some value)
    (rest : List (String × Aggregation)) :
    decodeChildren formatter (c :: rest) members =
      (c.2.decodePart formatter value).bind (fun result =>
        (decodeChildren formatter rest members).map (fun others => (c.1, result) :: others)) := by
  obtain ⟨name, a⟩ := c
  rw [decodeChildren, h]
  -- the decoder tells objects from final values before it decodes the rest
  cases value with
  | object payload =>
    dsimp only
    rw [decodePart_object]
    cases a.decode formatter (.object payload) with
    | error e => rfl
    | ok result => cases decodeChildren formatter rest members <;> rfl
  | _ =>
    dsimp only
    rw [decodePart_of_scalar rfl]
    cases decodeChildren formatter rest members <;> rfl

/-- **The children are decoded one after the other**, in the order of registration. -/
theorem decodeChildren_eq_mapM (formatter : Formatter) (children : List (String × Aggregation))
    (members : Document) :
    decodeChildren formatter children members =
      (children.mapM (decodeChild formatter members)).map (List.filterMap id) := by
  induction children with
  | nil => rfl
  | cons c rest ih =>
    rw [Outcome.mapM_cons]
    cases h : members.get? c.1 with
    | none =>
      -- the step of an absent child succeeds with nothing, which is filtered out
      rw [decodeChildren_cons_of_absent h, decodeChild_of_absent h, ih]
      cases rest.mapM (decodeChild formatter members) <;> rfl
    | some value =>
      -- the step of a child that is present succeeds with one result, which stays in the list
      rw [decodeChildren_cons_of_present h, decodeChild_of_present h, ih]
      cases c.2.decodePart formatter value with
      | error e => rfl
      | ok result => cases rest.mapM (decodeChild formatter members) <;> rfl

/-- Two parts of a response of which every child makes the same are decoded alike. -/
theorem decodeChildren_congr {formatter : Formatter} {children : List (String × Aggregation)}
    {members members' : Document} (h : ∀ c ∈ children,
      decodeChild formatter members c = decodeChild formatter members' c) :
    decodeChildren formatter children members = decodeChildren formatter children members' := by
  rw [decodeChildren_eq_mapM, decodeChildren_eq_mapM,
    Outcome.mapM_eq_mapM (List.forall₂_same.mpr h)]

end Aggregation

end SearchIndex
