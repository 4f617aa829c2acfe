import SearchIndex.Proofs.Aggregation.Address
import SearchIndex.Search

/-!
# Decoding the response of a search

A response is decoded in three steps, each of which may end it: the object of the hits, the
hits one by one, and the aggregations. `Search.decode_eq` writes this as a chain, and
`Search.part?` names the parts of a response that the registered aggregations get. The
result of an aggregation is what it decodes from its part (`Search.aggregation?_of_decode`).
-/

namespace SearchIndex

/-- A result from the object of the hits, the hits themselves and the aggregations. -/
def SearchResult.ofReported (reported : Document) (hits : List Hit)
    (aggregations : Table Decoded) : SearchResult where
  total := Search.total (reported.get? "total")
  maxScore := (reported.get? "max_score").bind Json.real?
  hits := hits
  aggregations := aggregations

namespace Search

variable {s : Search} {formatter : Formatter} {raw : Json}

/-- The hits that an object of hits lists; anything but a list counts as empty. -/
def listedHits (reported : Document) : List Json :=
  ((reported.get? "hits").bind Json.items?).getD []

/-- **Decoding in three steps**: the object of the hits, the hits, and the aggregations. -/
theorem decode_eq (s : Search) (formatter : Formatter) (raw : Json) :
    s.decode formatter raw =
      (Outcome.require (.decode .withoutHits) ((raw.member? "hits").bind Json.members?)).bind
        (fun reported => ((listedHits reported).mapM decodeHit).bind (fun hits =>
          (s.decodeAggregations formatter (raw.member? "aggregations")).map
            (SearchResult.ofReported reported hits))) := by
  rw [decode]
  -- a step that fails is the last one on both sides
  cases (raw.member? "hits").bind Json.members? with
  | none => rfl
  | some reported =>
    change (listedHits reported).mapM decodeHit >>= _ =
      ((listedHits reported).mapM decodeHit).bind _
    cases (listedHits reported).mapM decodeHit with
    | error e => rfl
    | ok hits =>
      change s.decodeAggregations formatter (raw.member? "aggregations") >>= _ = Except.map _ _
      cases s.decodeAggregations formatter (raw.member? "aggregations") <;> rfl

/-- The registered aggregation of a name, with its part of the response. -/
def part? (s : Search) (raw : Json) (name : String) : Option (Aggregation × Json) :=
  ((raw.member? "aggregations").bind Json.members?).bind (fun members =>
    Aggregation.registeredPart? s.aggregations.entries members name)

theorem aggregation?_of_decodeAggregations {results : Table Decoded}
    (h : s.decodeAggregations formatter (raw.member? "aggregations") = .ok results)
    (name : String) :
    Option.Rel (fun part result => part.1.decodePart formatter part.2 = .ok result)
      (s.part? raw name) (results.get? name) := by
  rw [part?]
  -- without a list of aggregations nothing is decoded, and there is no part
  cases hraw : raw.member? "aggregations" with
  | none =>
    rw [hraw] at h
    cases h
    exact .none
  | some reported =>
    rw [hraw] at h
    cases reported with
    | object members =>
      obtain ⟨entries, hentries, rfl⟩ := Outcome.map_eq_ok_iff.mp h
      exact Aggregation.lookup_of_decodeChildren hentries name
    | _ => cases h

/-- **The result of an aggregation is decoded from its part of the response.** -/
theorem aggregation?_of_decode {r : SearchResult} (h : s.decode formatter raw = .ok r)
    (name : String) :
    Option.Rel (fun part result => part.1.decodePart formatter part.2 = .ok result)
      (s.part? raw name) (r.aggregation? name) := by
  -- the hits have no influence on the aggregations
  rw [decode_eq, Outcome.bind_eq_ok_iff] at h
  obtain ⟨reported, -, h⟩ := h
  obtain ⟨hits, -, h⟩ := Outcome.bind_eq_ok_iff.mp h
  obtain ⟨results, hresults, rfl⟩ := Outcome.map_eq_ok_iff.mp h
  exact aggregation?_of_decodeAggregations hresults name

/-! ### A response -/

/-- A search for the sales by month, and for nothing else. -/
def sales : Search :=
  { empty with aggregations := ⟨[("by_month", Aggregation.salesByMonth)]⟩ }

/-- A response to this search with one hit. Its total, the hit and the whole say more than is
read of them. -/
def salesReport : Json :=
  .ofMembers [("took", .ofNat 3),
    ("hits", .ofMembers [("total", .ofMembers [("value", .ofNat 1), ("relation", .string "eq")]),
      ("hits", .array [.ofMembers [("_id", .string "a"), ("_version", .ofNat 1)]])]),
    ("aggregations", .ofMembers [("by_month", Aggregation.salesResponse)])]

end Search

end SearchIndex
