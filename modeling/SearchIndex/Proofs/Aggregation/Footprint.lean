import SearchIndex.Proofs.Aggregation.Tree
import SearchIndex.Proofs.Json.Footprint

/-!
# What an aggregation reads

An aggregation reads its own keys and the names of its children (`Aggregation.footprint`), and
a child reads in turn what is under its name. It follows the response only where it is led
by the registered names, never where a response goes on.

Two parts of a response with that much in common are decoded alike
(`Aggregation.decode_eq_of_agree`).
-/

namespace SearchIndex

/-- The keys that a bucket reads of an entry of a list of buckets. -/
def Bucket.ownFootprints : List (String × Footprint) :=
  [("key", .whole), ("key_as_string", .scalar), ("doc_count", .scalar)]

/-- What a metric reads: statistics are taken as they are, any other metric is a value. -/
def Metric.footprint (m : Metric) : Footprint :=
  if m.kind = .stats then .whole else .members [("value", .whole)]

mutual

/-- What an aggregation reads of its part of a response. -/
def Aggregation.footprint : Aggregation → Footprint
  | .grouping _ ⟨children⟩ =>
    .members [("buckets",
      .items (.members (Bucket.ownFootprints ++ Aggregation.childFootprints children)))]
  | .filter _ ⟨children⟩ =>
    .members (("doc_count", .scalar) :: Aggregation.childFootprints children)
  | .metric m => m.footprint

/-- What registered aggregations read: each the value under its name, which is final unless
it is an object. -/
def Aggregation.childFootprints : List (String × Aggregation) → List (String × Footprint)
  | [] => []
  | (name, a) :: rest => (name, .payload a.footprint) :: Aggregation.childFootprints rest

end

namespace Aggregation

open Footprint (Agree AgreeOn)

variable {formatter : Formatter} {a : Aggregation} {children : List (String × Aggregation)}
  {raw raw' : Json} {members members' : Document}

/-- What a registered aggregation reads is listed under its name. -/
theorem mem_childFootprints {c : String × Aggregation} (hc : c ∈ children) :
    (c.1, Footprint.payload c.2.footprint) ∈ childFootprints children := by
  induction children with
  | nil => cases hc
  | cons first rest ih =>
    rw [childFootprints]
    rcases List.mem_cons.mp hc with rfl | hrest
    · exact List.mem_cons_self
    · exact List.mem_cons_of_mem _ (ih hrest)

/-! ### Children -/

/-- Final values are the same, and objects are decoded alike if the aggregation does so. -/
theorem decodePart_eq_of_agree (h : (Footprint.payload a.footprint).Agree raw raw')
    (ha : a.footprint.Agree raw raw' → a.decode formatter raw = a.decode formatter raw') :
    a.decodePart formatter raw = a.decodePart formatter raw' := by
  rcases h with rfl | ⟨hraw, hraw', hagree⟩
  · rfl
  · -- both sides are objects, which the aggregation decodes
    obtain ⟨members, hmembers⟩ := Option.isSome_iff_exists.mp hraw
    obtain ⟨members', hmembers'⟩ := Option.isSome_iff_exists.mp hraw'
    obtain rfl := Json.members?_eq_some_iff.mp hmembers
    obtain rfl := Json.members?_eq_some_iff.mp hmembers'
    exact ha hagree

/-- **Children depend on what is under their names only.** -/
theorem decodeChildren_eq_of_agreeOn
    (ih : ∀ c ∈ children, ∀ raw raw', c.2.footprint.Agree raw raw' →
      c.2.decode formatter raw = c.2.decode formatter raw')
    (h : AgreeOn (childFootprints children) members members') :
    decodeChildren formatter children members = decodeChildren formatter children members' := by
  -- the children are the same, so it is enough to compare them one by one
  refine decodeChildren_congr fun c hc => ?_
  have hname := Footprint.agreeOn_iff.mp h c.1 _ (mem_childFootprints hc)
  obtain ⟨habsent, habsent'⟩ | ⟨value, value', hvalue, hvalue', hagree⟩ :=
    Related.none_or_some hname
  · rw [decodeChild_of_absent habsent, decodeChild_of_absent habsent']
  · -- both sides have a value under the name, and decode it alike
    rw [decodeChild_of_present hvalue, decodeChild_of_present hvalue',
      decodePart_eq_of_agree hagree (ih c hc value value')]

/-! ### Buckets -/

/-- The number of documents is the same where it is read in common. -/
theorem docCount_eq_of_agree
    (h : Option.Rel Footprint.scalar.Agree (members.get? "doc_count") (members'.get? "doc_count")) :
    (members.get? "doc_count").bind Json.nat? = (members'.get? "doc_count").bind Json.nat? :=
  Agree.bind_eq h (fun _ => rfl) fun _ => rfl

/-- Entries of a list of buckets are decoded alike if what their bucket reads is the same. -/
theorem ofMembers_eq_of_agreeOn (h : AgreeOn Bucket.ownFootprints members members')
    (results : List (String × Decoded)) :
    Bucket.ofMembers members results = Bucket.ofMembers members' results := by
  -- the key is read as a whole, the other two members only as far as they are scalars
  obtain ⟨hkey, htext, hcount, -⟩ := h
  have hkey_eq : members.get? "key" = members'.get? "key" := Footprint.eq_of_rel_whole hkey
  have htext_eq : (members.get? "key_as_string").bind Json.string? =
      (members'.get? "key_as_string").bind Json.string? :=
    Agree.bind_eq htext (fun _ => rfl) fun _ => rfl
  rw [Bucket.ofMembers, Bucket.ofMembers, hkey_eq, htext_eq, docCount_eq_of_agree hcount]

/-- Two entries that agree become the same bucket, or fail with the same error. -/
theorem decodeBucket_eq_of_agree (type : String)
    (ih : ∀ c ∈ children, ∀ raw raw', c.2.footprint.Agree raw raw' →
      c.2.decode formatter raw = c.2.decode formatter raw')
    (h : (Footprint.members (Bucket.ownFootprints ++ childFootprints children)).Agree raw raw') :
    Bucket.decode type (decodeChildren formatter children) raw =
      Bucket.decode type (decodeChildren formatter children) raw' := by
  rw [Bucket.decode_eq, Bucket.decode_eq]
  -- an entry is no object on both sides, or the two have in common what is read of them
  obtain ⟨hnone, hnone'⟩ | ⟨members, members', hsome, hsome', hagree⟩ := Related.none_or_some h
  · rw [hnone, hnone']
  · obtain ⟨hown, hchildren⟩ := Footprint.agreeOn_append.mp hagree
    have hbucket : Bucket.ofMembers members = Bucket.ofMembers members' :=
      funext (ofMembers_eq_of_agreeOn hown)
    rw [hsome, hsome', Outcome.require_some, Outcome.require_some]
    change (decodeChildren formatter children members).map _ =
      (decodeChildren formatter children members').map _
    rw [decodeChildren_eq_of_agreeOn ih hchildren, hbucket]

/-! ### Every level -/

/-- **An aggregation depends on what it reads only.** The induction is on the aggregation:
the children of a bucket are decoded alike, since the entries have what they read in
common. -/
theorem decode_eq_of_agree (formatter : Formatter) (a : Aggregation) (raw raw' : Json)
    (h : a.footprint.Agree raw raw') : a.decode formatter raw = a.decode formatter raw' := by
  induction a using Aggregation.induction generalizing raw raw' with
  | grouping g children ih =>
    have hlisted := Agree.bind_items? (Agree.member? h List.mem_cons_self)
    rw [decode_grouping, decode_grouping]
    -- either none of the two has a list of buckets, or both have, of the same length
    obtain ⟨hnone, hnone'⟩ | ⟨entries, entries', hsome, hsome', hentries⟩ :=
      Related.none_or_some hlisted
    · rw [hnone, hnone']
    · have hbuckets := Outcome.mapM_eq_mapM
        (hentries.imp fun entry entry' hentry => decodeBucket_eq_of_agree g.word ih hentry)
      rw [hsome, hsome', Outcome.require_some, Outcome.require_some]
      exact congrArg (Except.map Decoded.buckets) hbuckets
  | filter query children ih =>
    -- there is no list inside a filter, whose part of the response is the only bucket
    rw [decode_filter, decode_filter]
    obtain ⟨hnone, hnone'⟩ | ⟨members, members', hsome, hsome', hcount, hchildren⟩ :=
      Related.none_or_some h
    · rw [hnone, hnone']
    · -- the key of the part of the response is not read, so it may differ here
      have hbucket : ∀ results, (Bucket.ofMembers members results).withoutKey =
          (Bucket.ofMembers members' results).withoutKey := by
        intro results
        simp only [Bucket.withoutKey, Bucket.ofMembers, docCount_eq_of_agree hcount]
      rw [hsome, hsome', Outcome.require_some, Outcome.require_some]
      change (decodeChildren formatter children.entries members).map _ =
        (decodeChildren formatter children.entries members').map _
      simp only [decodeChildren_eq_of_agreeOn ih hchildren, hbucket]
  | metric m =>
    rw [decode, decode, Metric.decode, Metric.decode]
    by_cases hkind : m.kind = .stats
    · -- statistics are read as a whole
      have hwhole : (metric m).footprint = .whole := if_pos hkind
      rw [hwhole] at h
      obtain rfl : raw = raw' := h
      rfl
    · -- of any other metric the value is read, and there is no other member to agree on
      have hvalue_only : (metric m).footprint = .members [("value", .whole)] := if_neg hkind
      rw [hvalue_only] at h
      obtain ⟨hnone, hnone'⟩ | ⟨members, members', hsome, hsome', hvalue, -⟩ :=
        Related.none_or_some h
      · rw [hnone, hnone']
      · have hvalue_eq : members.get? "value" = members'.get? "value" :=
          Footprint.eq_of_rel_whole hvalue
        rw [hsome, hsome']
        simp only [if_neg hkind, hvalue_eq]

end Aggregation

end SearchIndex
