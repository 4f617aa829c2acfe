import SearchIndex.Proofs.Aggregation.Session
import SearchIndex.Proofs.Search.Response
import SearchIndex.Proofs.Table.OfList
import SearchIndex.Proofs.Table.Values

/-!
# Results as they are written

A bucket is written as one object: its own members, and beside them its children under their
names. A child by the name of such a member, or two children by one name, would make two members
of one key, of which a reader gets only one. What keeps them apart is decided when children are
registered (`Aggregations.WellNamed`), long before there is a response.

The decoded children of a bucket are some of the registered ones, so whatever the response, no
bucket of a result has a child that could get into the way of another or of the bucket
(`Aggregation.apart_of_decodePart`). Such a bucket is written without loss (`Bucket.writtenAs`),
and a result can be read by its addresses from what it is written as:
`Aggregation.built_written` says both of all aggregations that can be built.
-/

namespace SearchIndex

/-! ### Buckets as documents -/

/-- The children of a bucket have distinct names, none of which the bucket uses for itself. -/
structure Bucket.NamedApart (b : Bucket) : Prop where
  distinct : b.children.keys.Nodup
  apart : ∀ name ∈ b.children.keys, name ∉ Aggregations.reservedNames

/-- A document is what a bucket is written as, and nothing in it is written over anything else:
the members of the bucket that are set come first and then its children in order, under distinct
keys, and under each key is found what has been written there. -/
structure Bucket.WrittenAs (b : Bucket) (d : Document) : Prop where
  keys_eq : d.keys = "key" :: ((if b.keyAsString.isSome then ["key_as_string"] else []) ++
    (if b.docCount.isSome then ["doc_count"] else []) ++ b.children.keys)
  distinct : d.keys.Nodup
  kept : Table.ofList d.entries = d
  key : d.get? "key" = some b.key
  keyAsString : d.get? "key_as_string" = b.keyAsString.map .string
  docCount : d.get? "doc_count" = b.docCount.map .ofNat
  child : ∀ name ∈ b.children.keys, d.get? name = (b.child? name).map Decoded.toJson

/-- The children are written in order, each under its name. -/
theorem Decoded.toMembers_eq_map (children : List (String × Decoded)) :
    Decoded.toMembers children = children.map fun c => (c.1, c.2.toJson) := by
  induction children with
  | nil => rfl
  | cons c rest ih =>
    obtain ⟨name, r⟩ := c
    rw [Decoded.toMembers, ih, List.map_cons]

/-- Buckets are written in order, each as an object. -/
theorem Bucket.toItems_eq_map (buckets : List Bucket) :
    Bucket.toItems buckets = buckets.map fun b => .object b.toDocument := by
  induction buckets with
  | nil => rfl
  | cons b rest ih => rw [Bucket.toItems, ih, List.map_cons]

namespace Bucket

/-- The members that a bucket has without its children. -/
def ownMembers (b : Bucket) : List (String × Json) :=
  ("key", b.key) :: ((b.keyAsString.map fun s => ("key_as_string", Json.string s)).toList ++
    (b.docCount.map fun n => ("doc_count", Json.ofNat n)).toList)

/-- The members of a bucket come first, and then its children. -/
theorem entries_toDocument (b : Bucket) :
    b.toDocument.entries = b.ownMembers ++ b.children.entries.map fun c => (c.1, c.2.toJson) := by
  obtain ⟨key, keyAsString, docCount, ⟨children⟩⟩ := b
  rw [toDocument, Decoded.toMembers_eq_map]
  rfl

/-- The key is always there, the text and the count if they are set. -/
theorem keys_ownMembers (b : Bucket) : b.ownMembers.map Prod.fst =
    "key" :: ((if b.keyAsString.isSome then ["key_as_string"] else []) ++
      (if b.docCount.isSome then ["doc_count"] else [])) := by
  obtain ⟨key, keyAsString, docCount, children⟩ := b
  -- the members that are set are known in each of the four cases
  cases keyAsString <;> cases docCount <;> rfl

/-- The own members are under some of the names that children may not have. -/
theorem keys_ownMembers_sublist (b : Bucket) :
    (b.ownMembers.map Prod.fst).Sublist Aggregations.reservedNames := by
  rw [keys_ownMembers]
  cases b.keyAsString.isSome <;> cases b.docCount.isSome <;> decide

/-- What is written under a key is looked up among the own members first. -/
theorem get?_toDocument (b : Bucket) (key : String) : b.toDocument.get? key =
    (b.ownMembers.lookup key).or ((b.child? key).map Decoded.toJson) := by
  unfold Table.get?
  rw [entries_toDocument, List.lookup_append]
  exact congrArg _ (Table.get?_mapValues (fun _ => Decoded.toJson) b.children key)

/-- No child has a name that the bucket uses for itself. -/
theorem child?_eq_none_of_reserved {b : Bucket} (h : b.NamedApart) {name : String}
    (hname : name ∈ Aggregations.reservedNames) : b.child? name = none := by
  rw [← Option.not_isSome_iff_eq_none]
  exact fun hsome => h.apart name (Table.mem_keys_iff.mpr hsome) hname

/-- **A bucket is written without loss** if its children are named apart. -/
theorem writtenAs {b : Bucket} (h : b.NamedApart) : b.WrittenAs b.toDocument := by
  have hkeys : b.toDocument.keys = b.ownMembers.map Prod.fst ++ b.children.keys := by
    unfold Table.keys
    rw [entries_toDocument, List.map_append, List.map_map]
    rfl
  have hdistinct : b.toDocument.keys.Nodup := by
    rw [hkeys, List.nodup_append]
    have hown := b.keys_ownMembers_sublist
    -- the members have distinct keys, the children distinct names, and no name is a key
    refine ⟨hown.nodup (by decide), h.distinct, ?_⟩
    rintro name hname _ hchild rfl
    exact h.apart name hchild (hown.subset hname)
  -- under a name that is kept from children, only the own members count
  have hreserved : ∀ name ∈ Aggregations.reservedNames,
      b.toDocument.get? name = b.ownMembers.lookup name := by
    intro name hname
    rw [get?_toDocument, child?_eq_none_of_reserved h hname]
    exact Option.or_none
  refine ⟨?_, hdistinct, Table.ofList_entries hdistinct, ?_, ?_, ?_, fun name hname => ?_⟩
  · -- the keys, in order
    rw [hkeys, keys_ownMembers, List.cons_append]
  · -- the three members, which no child can hide
    rw [hreserved "key" (by decide)]
    rfl
  · rw [hreserved "key_as_string" (by decide)]
    unfold ownMembers
    cases b.keyAsString <;> cases b.docCount <;> rfl
  · rw [hreserved "doc_count" (by decide)]
    unfold ownMembers
    cases b.keyAsString <;> cases b.docCount <;> rfl
  · -- a child, which none of the members hides
    have hnone : b.ownMembers.lookup name = none := by
      rw [← Option.not_isSome_iff_eq_none]
      intro hsome
      have hown : name ∈ b.ownMembers.map Prod.fst :=
        Table.mem_keys_iff (t := ⟨b.ownMembers⟩).mpr hsome
      exact h.apart name hname (b.keys_ownMembers_sublist.subset hown)
    rw [get?_toDocument, hnone]
    rfl

end Bucket

/-! ### Buckets anywhere in a result -/

/-- A bucket is in a result: it is one of its buckets, or in the result of a child of one. -/
inductive Decoded.Holds : Decoded → Bucket → Prop where
  | own {r : Decoded} {b : Bucket} (listed : b ∈ r.bucketList) : Holds r b
  | inside {r child : Decoded} {b b' : Bucket} {name : String} (listed : b ∈ r.bucketList)
      (decoded : (name, child) ∈ b.children.entries) (held : Holds child b') : Holds r b'

namespace Aggregation

variable {a : Aggregation} {formatter : Formatter} {value : Json} {r : Decoded} {b : Bucket}

/-- The children of a well-formed aggregation are well named. -/
theorem WellFormed.names (h : a.WellFormed) : a.children.WellNamed := by
  cases h with
  | grouping parameters names inside => exact names
  | filter names inside => exact names
  | metric m => exact Aggregations.wellNamed_empty

/-- The children of a well-formed aggregation are well-formed. -/
theorem WellFormed.inside (h : a.WellFormed) : ∀ c ∈ a.children.entries, c.2.WellFormed := by
  cases h with
  | grouping parameters names inside => exact inside
  | filter names inside => exact inside
  | metric m => exact fun c hc => absurd hc List.not_mem_nil

/-- A decoded child is what a registered one has made of some part of the response. -/
theorem exists_of_mem_decodeChildren {children : List (String × Aggregation)}
    {members : Document} {results : List (String × Decoded)} {c : String × Decoded}
    (h : decodeChildren formatter children members = .ok results) (hc : c ∈ results) :
    ∃ registered ∈ children, ∃ value, registered.2.decodePart formatter value = .ok c.2 := by
  induction children generalizing results with
  | nil =>
    cases h
    exact absurd hc List.not_mem_nil
  | cons first rest ih =>
    -- what is known of a later child is known of it among all children
    have hlater : ∀ {others}, decodeChildren formatter rest members = .ok others → c ∈ others →
        ∃ registered ∈ first :: rest, ∃ value,
          registered.2.decodePart formatter value = .ok c.2 := by
      intro others hothers hmem
      obtain ⟨registered, hregistered, hpart⟩ := ih hothers hmem
      exact ⟨registered, List.mem_cons_of_mem first hregistered, hpart⟩
    rcases decodeChildren_cons_eq_ok_iff.mp h with
      ⟨-, hrest⟩ | ⟨value, result, others, -, hresult, hothers, rfl⟩
    · -- the first child is absent, so the result is that of a later one
      exact hlater hrest hc
    · rcases List.mem_cons.mp hc with rfl | hc
      · exact ⟨first, List.mem_cons_self, value, hresult⟩
      · exact hlater hothers hc

/-- The children of a bucket have been decoded from its part of the response. -/
theorem exists_members_of_mem_bucketList (h : a.decodePart formatter value = .ok r)
    (hb : b ∈ r.bucketList) : ∃ members,
      decodeChildren formatter a.children.entries members = .ok b.children.entries := by
  -- the bucket stands at some number, and so does the entry it has been made of
  obtain ⟨i, hi⟩ := List.mem_iff_getElem?.mp hb
  have hrel := Related.getElem? (bucketList_of_decodePart h) i
  rw [hi] at hrel
  cases hentry : (a.bucketEntries value)[i]? <;> rw [hentry] at hrel
  case none => cases hrel
  case some =>
    cases hrel with
    | some hmade =>
      obtain ⟨members, -, hchildren⟩ := hmade
      exact ⟨members, hchildren⟩

/-- **Whatever the response, the children of every bucket are named apart.** The induction is on
how the bucket is reached; the children of a well-formed aggregation are so themselves. -/
theorem apart_of_decodePart (ha : a.WellFormed) (h : a.decodePart formatter value = .ok r)
    (hb : r.Holds b) : b.NamedApart := by
  induction hb generalizing a value with
  | own hlisted =>
    obtain ⟨members, hchildren⟩ := exists_members_of_mem_bucketList h hlisted
    have hnames := names_of_decodeChildren hchildren
    constructor
    · -- the names are some of the registered ones, which are distinct
      unfold Table.keys
      rw [hnames]
      exact ha.names.distinct.filter _
    · -- and none of those is a name that buckets use
      intro name hname
      unfold Table.keys at hname
      rw [hnames] at hname
      exact (ha.names.allowed name (List.mem_of_mem_filter hname)).2
  | inside hlisted hdecoded hheld ih =>
    -- the bucket lies deeper, in what a registered child has decoded
    obtain ⟨members, hchildren⟩ := exists_members_of_mem_bucketList h hlisted
    obtain ⟨registered, hregistered, payload, hpart⟩ :=
      exists_of_mem_decodeChildren hchildren hdecoded
    exact ih (ha.inside registered hregistered) hpart

end Aggregation

/-! ### Reading by address -/

/-- The objects that buckets are written as: the items of an array, or the value itself. -/
def Json.written : Json → List Json
  | .array items => items
  | value => [value]

/-- The value at an address: the member of that name in the object of that number, and on from
there. -/
def Json.at? (value : Json) : List (Nat × String) → Option Json
  | [] => some value
  | (i, name) :: rest =>
    value.written[i]?.bind fun item => (item.member? name).bind fun inner => inner.at? rest

/-- The bucket of a number is written as the object of that number. -/
theorem Decoded.written_toJson {r : Decoded} {i : Nat} {b : Bucket}
    (h : r.bucketList[i]? = some b) : r.toJson.written[i]? = some (.object b.toDocument) := by
  cases r with
  | value v => exact absurd h (by simp [bucketList])
  | bucket b' =>
    -- a filter has one bucket, which is written without a list around it
    cases i with
    | zero => exact congrArg _ (congrArg _ (congrArg _ (Option.some.inj h)))
    | succ i => exact absurd h (by simp [bucketList])
  | buckets bs =>
    rw [toJson, Bucket.toItems_eq_map]
    change (bs.map _)[i]? = _
    rw [List.getElem?_map]
    change bs[i]? = some b at h
    rw [h]
    rfl

/-- **A result is found at the same address in what it is part of and in what that is written
as.** -/
theorem Decoded.at?_toJson {r result : Decoded} {address : List (Nat × String)}
    (hapart : ∀ b, r.Holds b → b.NamedApart) (h : r.at? address = some result) :
    r.toJson.at? address = some result.toJson := by
  induction address generalizing r with
  | nil =>
    -- the result itself is written as it is written
    exact congrArg _ (congrArg _ (Option.some.inj h))
  | cons step rest ih =>
    obtain ⟨i, name⟩ := step
    -- the address leads to a bucket and then to a child of it
    obtain ⟨b, hb, h⟩ := Option.bind_eq_some_iff.mp h
    obtain ⟨child, hchild, h⟩ := Option.bind_eq_some_iff.mp h
    have hlisted := List.mem_of_getElem? hb
    have hown := hapart b (.own hlisted)
    have hmem : (name, child) ∈ b.children.entries :=
      (Table.get?_eq_some_iff hown.distinct).mp hchild
    -- the bucket is written as an object that has the child under its name
    have hwritten : b.toDocument.get? name = some child.toJson := by
      rw [(Bucket.writtenAs hown).child name (List.mem_map_of_mem hmem), hchild]
      rfl
    unfold Json.at?
    rw [written_toJson hb]
    change ((b.toDocument.get? name).bind fun inner => inner.at? rest) = _
    rw [hwritten]
    exact ih (fun b' hb' => hapart b' (.inside hlisted hmem hb')) h

namespace Aggregation

/-- **A result is written without loss**, whatever calls have built the aggregation and whatever
the response and the formatter. Every bucket in it is written as an object whose keys are those
of the members that are set and the names of its children, once each and in order, and under each
of them is what the bucket has there. So at every address of the result, what it is written as
has what the result at that address is written as. -/
theorem built_written {a : Aggregation} (hbuilt : a.Built) {formatter : Formatter} {raw : Json}
    {r : Decoded} (h : a.decode formatter raw = .ok r) :
    (∀ b, r.Holds b → b.WrittenAs b.toDocument) ∧
      ∀ address result, r.at? address = some result →
        r.toJson.at? address = some result.toJson := by
  have hapart : ∀ b, r.Holds b → b.NamedApart := fun b hb =>
    apart_of_decodePart hbuilt.wellFormed (decodePart_of_decode h) hb
  exact ⟨fun b hb => Bucket.writtenAs (hapart b hb),
    fun address result hat => Decoded.at?_toJson hapart hat⟩

/-- Sales by month and tag, built with a call that is refused: months have a key already. -/
def salesByTag : Aggregation :=
  let tags := (call (.child "total" (metric ⟨.sum, "price"⟩))).after (terms "tag")
  (call (.child "key" tags)).after ((call (.child "tags" tags)).after (dateHistogram "sold_at"))

/-- The tree has been built by calls, of which the last is refused. -/
theorem salesByTag_built : salesByTag.Built := by
  have htags : Built ((call (.child "total" (metric ⟨.sum, "price"⟩))).after (terms "tag")) :=
    .call (.terms "tag") fun name b h => by
      cases h
      exact .metric _
  unfold salesByTag
  refine .call (.call (.dateHistogram "sold_at") fun name b h => ?_) fun name b h => ?_
  all_goals
    cases h
    exact htags

/-- The only tag of the second month, and what is read of it where the sales are written. -/
theorem salesByTag_written : ∃ r b, salesByTag.decode Formatter.passthrough salesResponse = .ok r ∧
    r.Holds b ∧ b.key = .string "rust" ∧ b.WrittenAs b.toDocument ∧
    b.toDocument.keys = ["key", "total"] ∧
    r.toJson.at? [(1, "tags"), (0, "total")] = some (.ofNat 7) := by
  obtain ⟨r, hr⟩ : ∃ r, salesByTag.decode Formatter.passthrough salesResponse = .ok r := ⟨_, rfl⟩
  obtain ⟨hwritten, hread⟩ := built_written salesByTag_built hr
  cases hr
  refine ⟨_, ⟨.string "rust", none, none, ⟨[("total", .value (.ofNat 7))]⟩⟩, rfl, ?_, rfl,
    hwritten _ ?_, rfl, hread _ (.value (.ofNat 7)) rfl⟩
  -- the bucket is in what the child named tags has decoded
  all_goals
    exact .inside (List.mem_cons_of_mem _ List.mem_cons_self) List.mem_cons_self
      (.own List.mem_cons_self)

end Aggregation

/-- **The results of a search are written without loss** if its aggregations have been built. -/
theorem Search.aggregation_writtenAs {s : Search} {formatter : Formatter} {raw : Json}
    {r : SearchResult} {name : String} {result : Decoded} {b : Bucket}
    (hbuilt : ∀ c ∈ s.aggregations.entries, c.2.Built) (h : s.decode formatter raw = .ok r)
    (hresult : r.aggregation? name = some result) (hb : result.Holds b) :
    b.WrittenAs b.toDocument := by
  have hrel := aggregation?_of_decode h name
  rw [hresult] at hrel
  cases hpart : s.part? raw name <;> rw [hpart] at hrel
  case none => cases hrel
  case some part =>
    -- the part belongs to an aggregation that is registered
    obtain ⟨members, -, hfound⟩ := Option.bind_eq_some_iff.mp hpart
    obtain ⟨a, ha, hvalue⟩ := Option.bind_eq_some_iff.mp hfound
    obtain ⟨value, -, rfl⟩ := Option.map_eq_some_iff.mp hvalue
    obtain ⟨before, after, hsplit, -⟩ := List.lookup_eq_some_iff.mp ha
    have hmem : (name, a) ∈ s.aggregations.entries := hsplit ▸ by simp
    cases hrel with
    | some hdecoded =>
      exact Bucket.writtenAs
        (Aggregation.apart_of_decodePart (hbuilt _ hmem).wellFormed hdecoded hb)

end SearchIndex
