import SearchIndex.Proofs.Aggregation.Footprint
import SearchIndex.Proofs.Search.Response

/-!
# What a search reads of a response

The engine says more in a response than a search asks for, and may say more tomorrow. A
search reads a fixed set of keys and the names of its aggregations (`Search.footprint`). The
main result, `Search.decode_unread`, says that nothing else has an influence: two responses
with that much in common have the same outcome, error or result, and so have two responses
that single changes elsewhere lead between.
-/

namespace SearchIndex

/-- What is read of a hit: its source as it is, and three values. -/
def Hit.footprint : Footprint :=
  .members [("_id", .scalar), ("_index", .scalar), ("_score", .scalar), ("_source", .whole)]

namespace Search

/-- The keys that are read of the object of the hits. The number of hits is a bare count or
the value of an object. -/
def hitsFootprints : List (String × Footprint) :=
  [("total", .scalar), ("total", .members [("value", .scalar)]), ("max_score", .scalar),
    ("hits", .items Hit.footprint)]

/-- What a search reads of a response. -/
def footprint (s : Search) : Footprint :=
  .members [("hits", .members hitsFootprints),
    ("aggregations", .members (Aggregation.childFootprints s.aggregations.entries))]

open Footprint (Agree AgreeOn)

variable {s : Search} {formatter : Formatter} {raw raw' : Json} {reported reported' : Document}

/-! ### Hits -/

/-- A hit is read from its footprint only. -/
theorem decodeHit_eq_of_agree (h : Hit.footprint.Agree raw raw') :
    decodeHit raw = decodeHit raw' := by
  rw [decodeHit, decodeHit]
  -- both are objects or neither is, and these have what is read in common
  obtain ⟨hnone, hnone'⟩ | ⟨members, members', hsome, hsome', hid, hindex, hscore, hsource, -⟩ :=
    Related.none_or_some h
  · rw [hnone, hnone']
  · have hid_eq : (members.get? "_id").bind hitId? = (members'.get? "_id").bind hitId? :=
      Agree.bind_eq hid (fun _ => rfl) fun _ => rfl
    have hindex_eq : (members.get? "_index").bind Json.string? =
        (members'.get? "_index").bind Json.string? :=
      Agree.bind_eq hindex (fun _ => rfl) fun _ => rfl
    have hscore_eq : (members.get? "_score").bind Json.real? =
        (members'.get? "_score").bind Json.real? :=
      Agree.bind_eq hscore (fun _ => rfl) fun _ => rfl
    have hsource_eq : members.get? "_source" = members'.get? "_source" :=
      Footprint.eq_of_rel_whole hsource
    rw [hsome, hsome']
    simp only [hid_eq, hindex_eq, hscore_eq, hsource_eq]

theorem forall₂_listedHits (h : AgreeOn hitsFootprints reported reported') :
    List.Forall₂ Hit.footprint.Agree (listedHits reported) (listedHits reported') := by
  obtain ⟨-, -, -, hhits, -⟩ := h
  have hlisted := Agree.bind_items? hhits
  rw [listedHits, listedHits]
  obtain ⟨hnone, hnone'⟩ | ⟨hits, hits', hsome, hsome', hagree⟩ := Related.none_or_some hlisted
  · rw [hnone, hnone']
    exact .nil
  · rw [hsome, hsome']
    exact hagree

/-- An array is no number of hits. -/
theorem total_of_array {value : Json} (hscalar : value.isScalar = false)
    (hmembers : value.members? = none) : total (some value) = 0 := by
  cases value with
  | array items => rfl
  | object members => cases hmembers
  | _ => cases hscalar

/-- A count is the same where both forms of it are read in common. -/
theorem total_eq_of_agree {x y : Option Json} (hcount : Option.Rel Footprint.scalar.Agree x y)
    (hvalue : Option.Rel (Footprint.members [("value", .scalar)]).Agree x y) :
    total x = total y := by
  obtain ⟨rfl, rfl⟩ | ⟨v, w, rfl, rfl, hvw⟩ := Related.none_or_some hcount
  · rfl
  · -- as scalars the two are equal, or neither of them is one
    rcases hvw with rfl | ⟨hv, hw⟩
    · rfl
    · obtain ⟨hnone, hnone'⟩ | ⟨members, members', hsome, hsome', hagree, -⟩ :=
        Related.none_or_some (Related.bind hvalue fun _ _ hmembers => hmembers)
      · rw [total_of_array hv hnone, total_of_array hw hnone']
      · obtain rfl : v = .object members := Json.members?_eq_some_iff.mp hsome
        obtain rfl : w = .object members' := Json.members?_eq_some_iff.mp hsome'
        have hnat : (members.get? "value").bind Json.nat? =
            (members'.get? "value").bind Json.nat? :=
          Agree.bind_eq hagree (fun _ => rfl) fun _ => rfl
        rw [total, total, hnat]

theorem ofReported_eq_of_agreeOn (h : AgreeOn hitsFootprints reported reported') :
    SearchResult.ofReported reported = SearchResult.ofReported reported' := by
  obtain ⟨hcount, hvalue, hmax, -, -⟩ := h
  -- the number of hits is read in one form or the other
  have htotal_eq : total (reported.get? "total") = total (reported'.get? "total") :=
    total_eq_of_agree hcount hvalue
  have hmax_eq : (reported.get? "max_score").bind Json.real? =
      (reported'.get? "max_score").bind Json.real? :=
    Agree.bind_eq hmax (fun _ => rfl) fun _ => rfl
  funext hits aggregations
  rw [SearchResult.ofReported, SearchResult.ofReported, htotal_eq, hmax_eq]

/-! ### Aggregations -/

theorem decodeAggregations_some (s : Search) (formatter : Formatter) (value : Json) :
    s.decodeAggregations formatter (some value) =
      (Outcome.require (.decode .aggregationsNotAnObject) value.members?).bind
        (s.aggregations.decode formatter) := by
  cases value <;> rfl

theorem decodeAggregations_eq_of_agree {x y : Option Json}
    (h : Option.Rel
      (Footprint.members (Aggregation.childFootprints s.aggregations.entries)).Agree x y) :
    s.decodeAggregations formatter x = s.decodeAggregations formatter y := by
  -- nothing is reported in either, or something in both
  obtain ⟨rfl, rfl⟩ | ⟨v, w, rfl, rfl, hvw⟩ := Related.none_or_some h
  · rfl
  · rw [decodeAggregations_some, decodeAggregations_some]
    obtain ⟨hnone, hnone'⟩ | ⟨members, members', hsome, hsome', hagree⟩ := Related.none_or_some hvw
    · rw [hnone, hnone']
    · have hchildren := Aggregation.decodeChildren_eq_of_agreeOn
        (fun c _ => Aggregation.decode_eq_of_agree formatter c.2) hagree
      rw [hsome, hsome', Outcome.require_some, Outcome.require_some]
      exact congrArg (Except.map Table.mk) hchildren

/-! ### Responses -/

/-- A search depends on what it reads only. -/
theorem decode_eq_of_agree (formatter : Formatter) (s : Search) (raw raw' : Json)
    (h : s.footprint.Agree raw raw') : s.decode formatter raw = s.decode formatter raw' := by
  -- the objects of the hits agree, and so do the aggregations
  have hhits := Agree.bind_members? (Agree.member? h List.mem_cons_self)
  have haggregations : s.decodeAggregations formatter (raw.member? "aggregations") =
      s.decodeAggregations formatter (raw'.member? "aggregations") :=
    decodeAggregations_eq_of_agree
      (Agree.member? h (List.mem_cons_of_mem _ List.mem_cons_self))
  rw [decode_eq, decode_eq, haggregations]
  obtain ⟨hnone, hnone'⟩ | ⟨reported, reported', hsome, hsome', hagree⟩ :=
    Related.none_or_some hhits
  · rw [hnone, hnone']
  · -- the hits are read alike, one by one
    have hlisted : (listedHits reported).mapM decodeHit = (listedHits reported').mapM decodeHit :=
      Outcome.mapM_eq_mapM ((forall₂_listedHits hagree).imp fun _ _ => decodeHit_eq_of_agree)
    rw [hsome, hsome', Outcome.require_some, Outcome.require_some]
    change ((listedHits reported).mapM decodeHit).bind _ =
      ((listedHits reported').mapM decodeHit).bind _
    rw [hlisted, ofReported_eq_of_agreeOn hagree]

/-- **Nothing but what is read has an influence.** Two responses that agree on the keys that
are read and on the names that are registered, at every depth, have the same outcome; so
have two responses of which one comes from the other by any number of changes that are not
read. -/
theorem decode_unread (formatter : Formatter) :
    (∀ (a : Aggregation) (raw raw' : Json), a.footprint.Agree raw raw' →
      a.decode formatter raw = a.decode formatter raw') ∧
    (∀ (s : Search) (raw raw' : Json), s.footprint.Agree raw raw' →
      s.decode formatter raw = s.decode formatter raw') ∧
    (∀ (a : Aggregation) (raw raw' : Json), Relation.ReflTransGen a.footprint.Edit raw raw' →
      a.decode formatter raw = a.decode formatter raw') ∧
    (∀ (s : Search) (raw raw' : Json), Relation.ReflTransGen s.footprint.Edit raw raw' →
      s.decode formatter raw = s.decode formatter raw') := by
  refine ⟨Aggregation.decode_eq_of_agree formatter, decode_eq_of_agree formatter,
    fun a raw raw' h => ?_, fun s raw raw' h => ?_⟩
  · exact Footprint.eq_of_edits (Aggregation.decode_eq_of_agree formatter a) h
  · exact Footprint.eq_of_edits (decode_eq_of_agree formatter s) h

/-- Totals by tag. -/
def totalsByTag : Aggregation :=
  .grouping (.terms ⟨"tag", none, none⟩) ⟨[("total", .metric ⟨.sum, "price"⟩)]⟩

/-- A search for totals by tag, and for nothing else. -/
def tagged : Search := { empty with aggregations := ⟨[("tags", totalsByTag)]⟩ }

/-- The entry of a tag. -/
def tagEntry : Document := ⟨[("key", .string "rust"), ("total", .ofMembers [("value", .ofNat 7)])]⟩

/-- The part of a response with the entry of one tag. -/
def tagPart (entry : Document) : Document := ⟨[("buckets", .array [.object entry])]⟩

/-- The part of a response with something else in the entry. -/
def wordyPart : Document := tagPart (tagEntry.insert "other" .null)

/-- A response with a part for tags. -/
def tagReport (tags : Document) : Document :=
  ⟨[("hits", .ofMembers [("total", .ofNat 1)]),
    ("aggregations", .ofMembers [("tags", .object tags)])]⟩

/-- What nobody asked for is written into the entry of a tag, and then into the part for the
tags or into the whole response. The outcomes stay. -/
theorem tagReport_unread :
    (totalsByTag.footprint.Agree (.object (tagPart tagEntry)) (.object wordyPart) ∧
      totalsByTag.decode Formatter.passthrough (.object (tagPart tagEntry)) =
        totalsByTag.decode Formatter.passthrough (.object wordyPart)) ∧
    (tagged.footprint.Agree
        (.object (tagReport (tagPart tagEntry))) (.object (tagReport wordyPart)) ∧
      tagged.decode Formatter.passthrough (.object (tagReport (tagPart tagEntry))) =
        tagged.decode Formatter.passthrough (.object (tagReport wordyPart))) ∧
    (Relation.ReflTransGen totalsByTag.footprint.Edit
        (.object (tagPart tagEntry)) (.object (wordyPart.insert "sum" (.ofNat 3))) ∧
      totalsByTag.decode Formatter.passthrough (.object (tagPart tagEntry)) =
        totalsByTag.decode Formatter.passthrough (.object (wordyPart.insert "sum" (.ofNat 3)))) ∧
    (Relation.ReflTransGen tagged.footprint.Edit (.object (tagReport (tagPart tagEntry)))
        (.object ((tagReport wordyPart).insert "took" (.ofNat 3))) ∧
      tagged.decode Formatter.passthrough (.object (tagReport (tagPart tagEntry))) =
        tagged.decode Formatter.passthrough
          (.object ((tagReport wordyPart).insert "took" (.ofNat 3)))) ∧
    ∃ r, tagged.decode Formatter.passthrough (.object (tagReport (tagPart tagEntry))) = .ok r := by
  obtain ⟨hagree, hagrees, hedits, hreports⟩ := decode_unread Formatter.passthrough
  -- the change is inside the entry, which is the only one of the list
  have hentry : (Footprint.members (Bucket.ownFootprints ++
      Aggregation.childFootprints [("total", .metric ⟨.sum, "price"⟩)])).Edit
      (.object tagEntry) (.object (tagEntry.insert "other" .null)) := .write (by decide)
  have hlist := @Footprint.Edit.item _ [] [] _ _ hentry
  have htags : totalsByTag.footprint.Edit (.object (tagPart tagEntry)) (.object wordyPart) := by
    refine @Footprint.Edit.member _ (tagPart tagEntry) "buckets" _ _ rfl fun r hr => ?_
    obtain rfl := (Prod.mk.inj (List.mem_singleton.mp hr)).2
    exact hlist
  have hsum : totalsByTag.footprint.Edit (.object wordyPart)
      (.object (wordyPart.insert "sum" (.ofNat 3))) := .write (by decide)
  have hparts := Relation.ReflTransGen.tail (.single htags) hsum
  -- the list is inside the aggregations of the whole
  have hpart : (Footprint.members (Aggregation.childFootprints tagged.aggregations.entries)).Edit
      (.ofMembers [("tags", .object (tagPart tagEntry))])
      (.ofMembers [("tags", .object wordyPart)]) := by
    refine @Footprint.Edit.member _ ⟨[("tags", _)]⟩ "tags" _ _ rfl fun r hr => ?_
    obtain rfl := (Prod.mk.inj (List.mem_singleton.mp hr)).2
    exact .payload htags
  have hreport : tagged.footprint.Edit
      (.object (tagReport (tagPart tagEntry))) (.object (tagReport wordyPart)) := by
    refine @Footprint.Edit.member _ (tagReport _) "aggregations" _ _ rfl fun r hr => ?_
    obtain rfl : r = .members (Aggregation.childFootprints tagged.aggregations.entries) := by
      simpa using hr
    exact hpart
  have htook : tagged.footprint.Edit (.object (tagReport wordyPart))
      (.object ((tagReport wordyPart).insert "took" (.ofNat 3))) := .write (by decide)
  have hreported := Relation.ReflTransGen.tail (.single hreport) htook
  exact ⟨⟨htags.agree, hagree _ _ _ htags.agree⟩, ⟨hreport.agree, hagrees _ _ _ hreport.agree⟩,
    ⟨hparts, hedits _ _ _ hparts⟩, ⟨hreported, hreports _ _ _ hreported⟩, _, rfl⟩

end Search

end SearchIndex
