import SearchIndex.Proofs.Aggregation.Shape
import SearchIndex.Proofs.Search.Response

/-!
# Formatters are confined to leaves

Formatters come from outside, so it matters what they cannot do. The main result,
`Search.formatter_confined`, compares two decodings of one response with formatters that
have nothing in common, for searches and for aggregations: both fail with the same error,
or both succeed with hits, buckets and names alike, and what differs are values at leaves
that a formatter was meant to change.
-/

namespace SearchIndex

/-- A table of results with the values at their leaves blanked out. -/
def Decoded.shapeTable (results : Table Decoded) : Table Decoded :=
  ⟨Decoded.shapeMembers results.entries⟩

/-- A response with the values at the leaves of its aggregations blanked out. -/
def SearchResult.shape (r : SearchResult) : SearchResult :=
  { r with aggregations := Decoded.shapeTable r.aggregations }

namespace Search

variable {formatter formatter' : Formatter}

/-- The aggregations of a response have the same shape under two formatters. -/
theorem map_shape_decodeAggregations (s : Search) (reported : Option Json) :
    (s.decodeAggregations formatter reported).map Decoded.shapeTable =
      (s.decodeAggregations formatter' reported).map Decoded.shapeTable := by
  cases reported with
  | none => rfl
  | some value =>
    cases value with
    | object members =>
      -- only what comes from the aggregations is formatted
      exact Outcome.map_map_congr (fun _ => rfl) (Aggregation.map_shape_decodeChildren
        (fun c _ raw => Aggregation.map_shape_decode c.2 raw) members)
    | _ => rfl

theorem map_shape_decode (s : Search) (raw : Json) :
    (s.decode formatter raw).map SearchResult.shape =
      (s.decode formatter' raw).map SearchResult.shape := by
  rw [decode_eq, decode_eq]
  cases (raw.member? "hits").bind Json.members? with
  | none => rfl
  | some reported =>
    -- the hits are read without a formatter
    change Except.map _ (Except.bind ((listedHits reported).mapM decodeHit) _) =
      Except.map _ (Except.bind ((listedHits reported).mapM decodeHit) _)
    cases (listedHits reported).mapM decodeHit with
    | error e => rfl
    | ok hits => exact Outcome.map_map_congr (fun _ => rfl) (map_shape_decodeAggregations s _)

/-- **A formatter changes nothing but values at leaves.** Two formatters lead to the same
error, or to results of the same shape, in which hits, buckets and names are the same. The
results of a mean, sum, least or greatest value are what each formatter makes of the value
in the response, and two results of statistics have the same entries but for these. -/
theorem formatter_confined (formatter formatter' : Formatter) :
    (∀ (a : Aggregation) (raw : Json),
      (a.decode formatter raw).map Decoded.shape = (a.decode formatter' raw).map Decoded.shape) ∧
    (∀ (a : Aggregation) (raw : Json) (r r' : Decoded),
      a.decode formatter raw = .ok r → a.decode formatter' raw = .ok r' →
      a.LeavesFormatted formatter formatter' raw r r') ∧
    (∀ (s : Search) (raw : Json), (s.decode formatter raw).map SearchResult.shape =
      (s.decode formatter' raw).map SearchResult.shape) ∧
    (∀ (s : Search) (raw : Json) (r r' : SearchResult),
      s.decode formatter raw = .ok r → s.decode formatter' raw = .ok r' →
      ∀ name a value, s.part? raw name = some (a, value) →
        ∃ result result', r.aggregation? name = some result ∧
          r'.aggregation? name = some result' ∧
          a.LeavesFormatted formatter formatter' value result result') := by
  refine ⟨fun a raw => Aggregation.map_shape_decode a raw, fun a raw r r' h h' => ?_,
    fun s raw => map_shape_decode s raw, fun s raw r r' h h' name a value hpart => ?_⟩
  · exact Aggregation.leavesFormatted (Aggregation.decodePart_of_decode h)
      (Aggregation.decodePart_of_decode h')
  · -- the name has its part in both, as the part depends on the response alone
    have hfound := aggregation?_of_decode h name
    have hfound' := aggregation?_of_decode h' name
    rw [hpart] at hfound hfound'
    obtain ⟨result, hresult, hdecoded⟩ := Related.exists_of_some hfound
    obtain ⟨result', hresult', hdecoded'⟩ := Related.exists_of_some hfound'
    exact ⟨result, result', hresult, hresult', Aggregation.leavesFormatted hdecoded hdecoded'⟩

/-- A formatter that hides every value reaches the total of a tag, deep in the results, and
nothing of their shape. -/
theorem salesReport_confined :
    (∃ r r',
      Aggregation.salesByMonth.decode Formatter.passthrough Aggregation.salesResponse = .ok r ∧
      Aggregation.salesByMonth.decode (fun _ _ => .string "hidden") Aggregation.salesResponse =
        .ok r' ∧
      r.shape = r'.shape ∧
      r.at? [(1, "tags"), (0, "total")] = some (.value (.ofNat 7)) ∧
      r'.at? [(1, "tags"), (0, "total")] = some (.value (.string "hidden"))) ∧
    ∃ r r' result result',
      sales.decode Formatter.passthrough salesReport = .ok r ∧
      sales.decode (fun _ _ => .string "hidden") salesReport = .ok r' ∧
      r.shape = r'.shape ∧
      r.aggregation? "by_month" = some result ∧ r'.aggregation? "by_month" = some result' ∧
      result.at? [(1, "tags"), (0, "total")] = some (.value (.ofNat 7)) ∧
      result'.at? [(1, "tags"), (0, "total")] = some (.value (.string "hidden")) := by
  obtain ⟨hshape, hleaves, hshapes, hreport⟩ :=
    formatter_confined Formatter.passthrough (fun _ _ => .string "hidden")
  -- the address leads to the total of the only tag of the second month
  have hpart : Aggregation.salesByMonth.part? Aggregation.salesResponse
      [(1, "tags"), (0, "total")] =
        some (.metric ⟨.sum, "price"⟩, .ofMembers [("value", .ofNat 7)]) := rfl
  constructor
  · obtain ⟨r, hr⟩ : ∃ r, Aggregation.salesByMonth.decode Formatter.passthrough
        Aggregation.salesResponse = .ok r := ⟨_, rfl⟩
    obtain ⟨r', hr'⟩ : ∃ r', Aggregation.salesByMonth.decode (fun _ _ => .string "hidden")
        Aggregation.salesResponse = .ok r' := ⟨_, rfl⟩
    have hsame := hshape Aggregation.salesByMonth Aggregation.salesResponse
    -- the shapes are those of the two results
    rw [hr, hr'] at hsame
    obtain ⟨v, hv, hat, hat'⟩ :=
      (hleaves _ _ r r' hr hr').metric _ _ _ hpart (by decide)
    obtain rfl : v = .ofNat 7 := (Option.some.inj hv).symm
    exact ⟨r, r', hr, hr', Except.ok.inj hsame, hat, hat'⟩
  · obtain ⟨r, hr⟩ : ∃ r, sales.decode Formatter.passthrough salesReport = .ok r := ⟨_, rfl⟩
    obtain ⟨r', hr'⟩ : ∃ r', sales.decode (fun _ _ => .string "hidden") salesReport = .ok r' :=
      ⟨_, rfl⟩
    have hsame := hshapes sales salesReport
    rw [hr, hr'] at hsame
    obtain ⟨result, result', hresult, hresult', hformatted⟩ :=
      hreport sales salesReport r r' hr hr' "by_month" _ _ rfl
    obtain ⟨v, hv, hat, hat'⟩ := hformatted.metric _ _ _ hpart (by decide)
    obtain rfl : v = .ofNat 7 := (Option.some.inj hv).symm
    exact ⟨r, r', result, result', hr, hr', Except.ok.inj hsame, hresult, hresult', hat, hat'⟩

end Search

end SearchIndex
