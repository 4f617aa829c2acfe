import SearchIndex.Proofs.Aggregation.Tree
import SearchIndex.Proofs.Related

/-!
# Where a result comes from

The result of an aggregation is a tree of its own. An address leads into it by the number
of a bucket and the name of a child, again and again (`Decoded.at?`). The same address
leads down the aggregations and the response together (`Aggregation.part?`), to the child
with that name and to the part that the entry with that number has under it.

The main result, `Aggregation.decode_faithful`, says that both walks arrive at the same
addresses, and that what stands there is what the child decodes from that very part. Each
bucket keeps what its own entry says (`Bucket.MadeOf`), and its children have the names of
the registered ones that the entry has, in the order of registration.
-/

namespace SearchIndex

/-! ### Walking by address -/

/-- The buckets of a result, one for a filter and none for a value. -/
def Decoded.bucketList : Decoded → List Bucket
  | .value _ => []
  | .bucket b => [b]
  | .buckets bs => bs

/-- The result at an address: the child of that name in the bucket of that number, and on
from there. -/
def Decoded.at? (r : Decoded) : List (Nat × String) → Option Decoded
  | [] => some r
  | (i, name) :: rest =>
    r.bucketList[i]?.bind (fun b => (b.child? name).bind (fun result => result.at? rest))

namespace Aggregation

/-- The entries of a part of a response that an aggregation makes buckets of. -/
def bucketEntries : Aggregation → Json → List Json
  | grouping _ _, value => ((value.member? "buckets").bind Json.items?).getD []
  | filter _ _, .object members => [.object members]
  | _, _ => []

/-- The aggregation at an address and its part of the response: the registered child of
that name with the member of that name in the entry of that number, and on from there. -/
def part? (a : Aggregation) (value : Json) : List (Nat × String) → Option (Aggregation × Json)
  | [] => some (a, value)
  | (i, name) :: rest =>
    (a.bucketEntries value)[i]?.bind (fun entry =>
      (a.children.get? name).bind (fun child =>
        (entry.member? name).bind (fun payload => child.part? payload rest)))

end Aggregation

/-! ### What one level keeps -/

/-- A bucket has the count of its part of the response, and of the registered children
those that the part has, in the order of registration. -/
structure Bucket.Keeps (children : Aggregations) (members : Document) (b : Bucket) : Prop where
  docCount_iff : ∀ n, b.docCount = some n ↔ members.get? "doc_count" = some (.ofNat n)
  names_eq : b.children.keys = children.keys.filter members.contains

/-- A bucket has been made of an entry of a list of buckets: it keeps the key as it is, or
null if there is none, and the text of the key if it is a text. -/
inductive Bucket.MadeOf (children : Aggregations) : Json → Bucket → Prop where
  | intro {members : Document} {b : Bucket}
      (key : b.key = (members.get? "key").getD .null)
      (keyAsString : ∀ s, b.keyAsString = some s ↔ members.get? "key_as_string" = some (.string s))
      (kept : b.Keeps children members) : MadeOf children (.object members) b

/-- What the result of an aggregation keeps of its part of the response, without what is
inside the children. -/
inductive Aggregation.Mirrors : Aggregation → Json → Decoded → Prop where
  /-- A grouping has one bucket for every entry, in order. -/
  | grouping {g : Grouping} {children : Aggregations} {value : Json} {entries : List Json}
      {buckets : List Bucket} (listed : value.member? "buckets" = some (.array entries))
      (made : List.Forall₂ (Bucket.MadeOf children) entries buckets) :
      Mirrors (.grouping g children) value (.buckets buckets)
  /-- A filter has one bucket, which has no key. -/
  | filter {query : Query} {children : Aggregations} {members : Document} {b : Bucket}
      (key : b.key = .null) (keyAsString : b.keyAsString = none)
      (kept : b.Keeps children members) :
      Mirrors (.filter query children) (.object members) (.bucket b)
  /-- A metric has a value. -/
  | metric {m : Metric} {members : Document} {v : Json} :
      Mirrors (.metric m) (.object members) (.value v)
  /-- What is no object is a value, whatever the aggregation. -/
  | scalar {a : Aggregation} {value v : Json} (scalar : value.members? = none) :
      Mirrors a value (.value v)

/-! ### Children -/

namespace Aggregation

variable {formatter : Formatter} {children : List (String × Aggregation)} {members : Document}
  {results : List (String × Decoded)}

/-- The first child is left out if the response lacks its part, and else it comes first among the
results. -/
theorem decodeChildren_cons_eq_ok_iff {c : String × Aggregation} :
    decodeChildren formatter (c :: children) members = .ok results ↔
      (members.get? c.1 = none ∧ decodeChildren formatter children members = .ok results) ∨
      ∃ value result others, members.get? c.1 = some value ∧
        c.2.decodePart formatter value = .ok result ∧
        decodeChildren formatter children members = .ok others ∧
        results = (c.1, result) :: others := by
  cases h : members.get? c.1 with
  | none => simp [decodeChildren_cons_of_absent h]
  | some value =>
    rw [decodeChildren_cons_of_present h]
    simp only [Outcome.bind_eq_ok_iff, Outcome.map_eq_ok_iff]
    constructor
    · -- the decoder reads the child before it goes on to the others
      rintro ⟨result, hresult, others, hothers, rfl⟩
      exact Or.inr ⟨value, result, others, rfl, hresult, hothers, rfl⟩
    · rintro (⟨hnone, -⟩ | ⟨value', result, others, heq, hresult, hothers, rfl⟩)
      · cases hnone
      · cases heq
        exact ⟨result, hresult, others, hothers, rfl⟩

/-- **The names of the results** are the registered ones that the part of the response has,
in the order of registration. -/
theorem names_of_decodeChildren (h : decodeChildren formatter children members = .ok results) :
    results.map Prod.fst = (children.map Prod.fst).filter members.contains := by
  induction children generalizing results with
  | nil =>
    cases h
    rfl
  | cons c rest ih =>
    rcases decodeChildren_cons_eq_ok_iff.mp h with
      ⟨hnone, hrest⟩ | ⟨value, result, others, hvalue, -, hothers, rfl⟩
    · -- the part is absent, so the name is filtered out as well
      have habsent : ¬ members.contains c.1 := by simp [Table.contains, hnone]
      rw [List.map_cons, List.filter_cons_of_neg habsent, ih hrest]
    · -- the part is there, and its name comes first on both sides
      have hpresent : members.contains c.1 := by simp [Table.contains, hvalue]
      rw [List.map_cons, List.map_cons, List.filter_cons_of_pos hpresent, ih hothers]

/-- The registered aggregation of a name, with the part of the response under that name. -/
def registeredPart? (children : List (String × Aggregation)) (members : Document)
    (name : String) : Option (Aggregation × Json) :=
  (children.lookup name).bind (fun a => (members.get? name).map (fun value => (a, value)))

/-- **A name finds the result of the aggregation that it finds**, from the part of the
response that it finds. -/
theorem lookup_of_decodeChildren (h : decodeChildren formatter children members = .ok results)
    (name : String) :
    Option.Rel (fun part result => part.1.decodePart formatter part.2 = .ok result)
      (registeredPart? children members name) (results.lookup name) := by
  induction children generalizing results with
  | nil =>
    cases h
    exact .none
  | cons c rest ih =>
    rcases decodeChildren_cons_eq_ok_iff.mp h with
      ⟨hnone, hrest⟩ | ⟨value, result, others, hvalue, hresult, hothers, rfl⟩
    · by_cases hname : name = c.1
      · -- the name is missing from the response, so it is not among the other results either
        subst hname
        have hother := ih hrest
        have habsent : ∀ children : List (String × Aggregation),
            registeredPart? children members c.1 = none := by
          intro children
          rw [registeredPart?, hnone]
          cases children.lookup c.1 <;> rfl
        rw [habsent] at hother ⊢
        exact hother
      · -- any other name is looked for behind the first child
        rw [registeredPart?, List.lookup_cons, beq_false_of_ne hname]
        exact ih hrest
    · -- now the first child has a result, which its own name finds
      by_cases hname : name = c.1
      · subst hname
        rw [registeredPart?, List.lookup_cons_self, List.lookup_cons_self, hvalue]
        exact .some hresult
      · rw [registeredPart?, List.lookup_cons, List.lookup_cons, beq_false_of_ne hname]
        exact ih hothers

/-! ### One level -/

variable {a : Aggregation} {value : Json} {r : Decoded}

/-- What is no object has no entries to make buckets of. -/
theorem bucketEntries_of_scalar (h : value.members? = none) (a : Aggregation) :
    a.bucketEntries value = [] := by
  cases a with
  | grouping g children => rw [bucketEntries, Json.member?, h]; rfl
  | filter query children => cases value <;> first | rfl | cases h
  | metric m => rfl

/-- A metric that is decoded has read an object, and its result is a value. -/
theorem exists_value_of_decode {m : Metric} (h : m.decode formatter value = .ok r) :
    ∃ members v, value = .object members ∧ r = .value v := by
  rw [Metric.decode] at h
  cases hm : value.members? with
  | none => rw [hm] at h; cases h
  | some members =>
    rw [hm] at h
    dsimp only at h
    refine ⟨members, ?_⟩
    -- statistics are built from the members, any other metric from one of them
    split at h
    · exact ⟨_, Json.members?_eq_some_iff.mp hm, (Except.ok.inj h).symm⟩
    · split at h
      · cases h
      · exact ⟨_, Json.members?_eq_some_iff.mp hm, (Except.ok.inj h).symm⟩

/-- The buckets of a result have been made of the entries, one by one. -/
theorem bucketList_of_decodePart (h : a.decodePart formatter value = .ok r) :
    List.Forall₂ (fun entry b => ∃ members, entry = .object members ∧
      decodeChildren formatter a.children.entries members = .ok b.children.entries)
      (a.bucketEntries value) r.bucketList := by
  cases value with
  | object payload =>
    rw [decodePart_object] at h
    cases a with
    | grouping g children =>
      -- the walk finds the entries that the decoder has found
      obtain ⟨entries, hentries, buckets, hbuckets, rfl⟩ := decode_grouping_eq_ok_iff.mp h
      rw [bucketEntries, hentries]
      refine hbuckets.imp fun entry b hb => ?_
      obtain ⟨members, results, rfl, hresults, rfl⟩ := Bucket.decode_eq_ok_iff.mp hb
      exact ⟨members, rfl, hresults⟩
    | filter query children =>
      -- the only entry of a filter is the part itself
      obtain ⟨members, heq, results, hresults, rfl⟩ := decode_filter_eq_ok_iff.mp h
      cases heq
      exact .cons ⟨payload, rfl, hresults⟩ .nil
    | metric m =>
      -- a metric makes no buckets, and none are looked for
      rw [decode] at h
      obtain ⟨-, v, -, rfl⟩ := exists_value_of_decode h
      exact .nil
  | _ =>
    -- what is no object is handed out as a value
    rw [decodePart_of_scalar rfl] at h
    rw [bucketEntries_of_scalar rfl, ← Except.ok.inj h]
    exact .nil

/-- What a bucket keeps of its part of the response. -/
theorem keeps_ofMembers {children : Aggregations}
    (h : decodeChildren formatter children.entries members = .ok results) :
    (Bucket.ofMembers members results).Keeps children members where
  docCount_iff n := by
    -- what stands there is the count only if it is a natural number
    change (members.get? "doc_count").bind Json.nat? = some n ↔ _
    rw [Option.bind_eq_some_iff]
    simp only [Json.nat?_eq_some_iff, exists_eq_right]
  names_eq := names_of_decodeChildren h

/-- **One level of a result mirrors its part of the response.** -/
theorem mirrors_of_decodePart (h : a.decodePart formatter value = .ok r) :
    a.Mirrors value r := by
  cases value with
  | object payload =>
    rw [decodePart_object] at h
    cases a with
    | grouping g children =>
      obtain ⟨entries, hentries, buckets, hbuckets, rfl⟩ := decode_grouping_eq_ok_iff.mp h
      refine .grouping hentries (hbuckets.imp fun entry b hb => ?_)
      obtain ⟨members, results, rfl, hresults, rfl⟩ := Bucket.decode_eq_ok_iff.mp hb
      -- the key is copied, and its text only if it is a text
      refine .intro rfl (fun s => ?_) (keeps_ofMembers hresults)
      change (members.get? "key_as_string").bind Json.string? = some s ↔ _
      rw [Option.bind_eq_some_iff]
      simp only [Json.string?_eq_some_iff, exists_eq_right]
    | filter query children =>
      obtain ⟨members, heq, results, hresults, rfl⟩ := decode_filter_eq_ok_iff.mp h
      cases heq
      have hkeeps := keeps_ofMembers hresults
      exact .filter rfl rfl ⟨hkeeps.docCount_iff, hkeeps.names_eq⟩
    | metric m =>
      -- a metric mirrors its part by having a value at all
      rw [decode] at h
      obtain ⟨-, v, -, rfl⟩ := exists_value_of_decode h
      exact .metric
  | _ =>
    rw [decodePart_of_scalar rfl] at h
    rw [← Except.ok.inj h]
    exact .scalar rfl

/-! ### Every level -/

/-- **The result at every address comes from the part of the response at that address.**
The induction is on the address; what one step finds has been decoded from what the same
step finds in the response. -/
theorem at?_of_decodePart (h : a.decodePart formatter value = .ok r)
    (address : List (Nat × String)) :
    Option.Rel (fun part result =>
      part.1.decodePart formatter part.2 = .ok result ∧ part.1.Mirrors part.2 result)
      (a.part? value address) (r.at? address) := by
  induction address generalizing a value r with
  | nil => exact .some ⟨h, mirrors_of_decodePart h⟩
  | cons step rest ih =>
    obtain ⟨i, name⟩ := step
    -- one step finds a bucket and its entry at the same number, or neither
    refine Related.bind (Related.getElem? (bucketList_of_decodePart h) i) fun entry b hb => ?_
    obtain ⟨members, rfl, hchildren⟩ := hb
    -- the walk looks up the aggregation and its part of the response one after the other
    have hpart : ((a.children.get? name).bind fun child => (members.get? name).bind fun payload =>
        child.part? payload rest)
        = (registeredPart? a.children.entries members name).bind fun part =>
          part.1.part? part.2 rest := by
      rw [registeredPart?]
      change ((a.children.entries.lookup name).bind _) = _
      cases a.children.entries.lookup name with
      | none => rfl
      | some child => cases members.get? name <;> rfl
    change Option.Rel _ ((a.children.get? name).bind fun child => (members.get? name).bind
      fun payload => child.part? payload rest) _
    rw [hpart]
    exact Related.bind (lookup_of_decodeChildren hchildren name) fun part result hresult =>
      ih hresult

/-- Decoding the whole response is decoding a part of it, since it must be an object then. -/
theorem decodePart_of_decode (h : a.decode formatter value = .ok r) :
    a.decodePart formatter value = .ok r := by
  cases hm : value.members? with
  | some members =>
    obtain rfl := Json.members?_eq_some_iff.mp hm
    exact h
  | none =>
    -- none of the kinds decodes what is no object
    cases a with
    | grouping g children =>
      obtain ⟨entries, hentries, -⟩ := decode_grouping_eq_ok_iff.mp h
      rw [Json.member?, hm] at hentries
      cases hentries
    | filter query children =>
      obtain ⟨members, rfl, -⟩ := decode_filter_eq_ok_iff.mp h
      cases hm
    | metric m =>
      rw [decode] at h
      obtain ⟨members, -, rfl, -⟩ := exists_value_of_decode h
      cases hm

/-- A list of entries is decoded in two halves as it is in one. -/
theorem decode_grouping_append {g : Grouping} {children : Aggregations} {raw raw₁ raw₂ : Json}
    {xs ys : List Json} (h : raw.member? "buckets" = some (.array (xs ++ ys)))
    (h₁ : raw₁.member? "buckets" = some (.array xs))
    (h₂ : raw₂.member? "buckets" = some (.array ys)) :
    (grouping g children).decode formatter raw = .ok r ↔ ∃ bs cs,
      (grouping g children).decode formatter raw₁ = .ok (.buckets bs) ∧
      (grouping g children).decode formatter raw₂ = .ok (.buckets cs) ∧
      r = .buckets (bs ++ cs) := by
  -- each of the three lists is a traversal, and a traversal splits where its list does
  simp only [decode_grouping_of_entries h, decode_grouping_of_entries h₁,
    decode_grouping_of_entries h₂, Outcome.map_eq_ok_iff, Outcome.mapM_append_eq_ok_iff,
    Decoded.buckets.injEq, exists_eq_right]
  constructor
  · rintro ⟨zs, ⟨bs, cs, hbs, hcs, rfl⟩, rfl⟩
    exact ⟨bs, cs, hbs, hcs, rfl⟩
  · rintro ⟨bs, cs, hbs, hcs, rfl⟩
    exact ⟨bs ++ cs, ⟨bs, cs, hbs, hcs, rfl⟩, rfl⟩

/-- **Decoding loses, invents, moves and mixes nothing.** An address leads to a result
exactly if it leads to a child and its part of the response, and then the result is what
this child decodes from this very part, with one bucket for every entry, in order, and with
the names of the children that the entry has, in the order of registration. The results of
two lists of entries behind one another are the results of the first and of the second. -/
theorem decode_faithful (formatter : Formatter) :
    (∀ (a : Aggregation) (raw : Json) (r : Decoded), a.decode formatter raw = .ok r →
      ∀ address, Option.Rel (fun part result =>
        part.1.decodePart formatter part.2 = .ok result ∧ part.1.Mirrors part.2 result)
        (a.part? raw address) (r.at? address)) ∧
    (∀ (g : Grouping) (children : Aggregations) (raw raw₁ raw₂ : Json) (xs ys : List Json),
      raw.member? "buckets" = some (.array (xs ++ ys)) →
      raw₁.member? "buckets" = some (.array xs) → raw₂.member? "buckets" = some (.array ys) →
      ∀ r, (grouping g children).decode formatter raw = .ok r ↔ ∃ bs cs,
        (grouping g children).decode formatter raw₁ = .ok (.buckets bs) ∧
        (grouping g children).decode formatter raw₂ = .ok (.buckets cs) ∧
        r = .buckets (bs ++ cs)) := by
  refine ⟨fun a raw r h address => ?_, fun g children raw raw₁ raw₂ xs ys h h₁ h₂ r => ?_⟩
  · exact at?_of_decodePart (decodePart_of_decode h) address
  · exact decode_grouping_append h h₁ h₂

/-- Sales by month, in each month by tag and in total, and for each tag in total. -/
def salesByMonth : Aggregation :=
  grouping (.dateHistogram ⟨"sold_at", some "1M", none, none⟩)
    ⟨[("tags", .grouping (.terms ⟨"tag", none, none⟩) ⟨[("total", .metric ⟨.sum, "price"⟩)]⟩),
      ("total", .metric ⟨.sum, "price"⟩), ("best", .metric ⟨.max, "price"⟩)]⟩

/-- A month without tags and with a total that is no object. -/
def january : Json :=
  .ofMembers [("key", .ofNat 1), ("doc_count", .ofNat 1), ("total", .ofNat 5),
    ("tags", .ofMembers [("buckets", .array [])])]

/-- A month that lists the children in an order of its own, and one that nobody asked for. -/
def february : Json :=
  .ofMembers [("total", .ofMembers [("value", .ofNat 9)]), ("other", .null),
    ("tags", .ofMembers [("buckets", .array [
      .ofMembers [("key", .string "rust"), ("total", .ofMembers [("value", .ofNat 7)])]])]),
    ("key", .ofNat 2), ("key_as_string", .string "February")]

/-- The sales of some months. -/
def salesOf (months : List Json) : Json := .ofMembers [("buckets", .array months)]

/-- The sales of two months. -/
def salesResponse : Json := salesOf [january, february]

/-- The sales of two months are those of the one and those of the other, and the total of the
only tag is found where it stands, in the second month. -/
theorem salesResponse_faithful : ∃ r result bs cs,
    salesByMonth.decode Formatter.passthrough salesResponse = .ok r ∧
    salesByMonth.Mirrors salesResponse r ∧
    r.at? [(1, "tags"), (0, "total")] = some result ∧
    (metric ⟨.sum, "price"⟩).decodePart Formatter.passthrough
      (.ofMembers [("value", .ofNat 7)]) = .ok result ∧
    salesByMonth.decode Formatter.passthrough (salesOf [january]) = .ok (.buckets bs) ∧
    salesByMonth.decode Formatter.passthrough (salesOf [february]) = .ok (.buckets cs) ∧
    r = .buckets (bs ++ cs) := by
  obtain ⟨r, hr⟩ : ∃ r, salesByMonth.decode Formatter.passthrough salesResponse = .ok r := ⟨_, rfl⟩
  obtain ⟨hfaithful, happend⟩ := decode_faithful Formatter.passthrough
  have haddress := hfaithful salesByMonth salesResponse r hr
  -- the address leads to the total of the only tag of the second month
  have hpart : salesByMonth.part? salesResponse [(1, "tags"), (0, "total")] =
      some (metric ⟨.sum, "price"⟩, .ofMembers [("value", .ofNat 7)]) := rfl
  have htotal := haddress [(1, "tags"), (0, "total")]
  rw [hpart] at htotal
  obtain ⟨result, hat, hresult, -⟩ := Related.exists_of_some htotal
  -- the empty address leads to the whole of both
  obtain ⟨whole, hwhole, -, hmirrors⟩ := Related.exists_of_some (haddress [])
  obtain rfl : r = whole := Option.some.inj hwhole
  -- the list of the months is that of the first month and that of the second
  obtain ⟨bs, cs, hjanuary, hfebruary, hboth⟩ := (happend _ _ salesResponse (salesOf [january])
    (salesOf [february]) [january] [february] rfl rfl rfl r).mp hr
  exact ⟨r, result, bs, cs, hr, hmirrors, hat, hresult, hjanuary, hfebruary, hboth⟩

end Aggregation

end SearchIndex
