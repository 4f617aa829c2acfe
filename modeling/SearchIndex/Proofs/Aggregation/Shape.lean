import SearchIndex.Proofs.Aggregation.Address
import SearchIndex.Proofs.Table.Values

/-!
# What a formatter can change

A formatter is handed values and nothing else. `Decoded.shape` blanks out every value at
the leaves of a result and keeps all that is around them: the kind of each result, the
buckets with their keys, texts and counts, and the names of the children.
`Aggregation.map_shape_decode` says that two decodings of one response have the same shape,
or the same error, whatever the formatters.

At the leaves themselves, `Aggregation.LeavesFormatted` says what a formatter has been
applied to: the value of a mean, sum, least or greatest value, once, and of statistics no
entry but these.
-/

namespace SearchIndex

/-! ### Shapes -/

mutual

/-- A bucket with the values at its leaves blanked out. -/
def Bucket.shape : Bucket → Bucket
  | ⟨key, keyAsString, docCount, ⟨children⟩⟩ =>
    ⟨key, keyAsString, docCount, ⟨Decoded.shapeMembers children⟩⟩

/-- A result with the values at its leaves blanked out. -/
def Decoded.shape : Decoded → Decoded
  | .value _ => .value .null
  | .bucket b => .bucket b.shape
  | .buckets bs => .buckets (Bucket.shapeItems bs)

/-- Buckets with the values at their leaves blanked out. -/
def Bucket.shapeItems : List Bucket → List Bucket
  | [] => []
  | b :: rest => b.shape :: Bucket.shapeItems rest

/-- Named results with the values at their leaves blanked out. -/
def Decoded.shapeMembers : List (String × Decoded) → List (String × Decoded)
  | [] => []
  | (name, r) :: rest => (name, r.shape) :: Decoded.shapeMembers rest

end

/-- Blanking out a list of buckets is blanking out each of them. -/
theorem Bucket.shapeItems_eq_map (bs : List Bucket) :
    Bucket.shapeItems bs = bs.map Bucket.shape := by
  induction bs with
  | nil => rfl
  | cons b rest ih => rw [shapeItems, ih, List.map_cons]

/-- A bucket keeps all of its own members when its children are blanked out. -/
theorem Bucket.shape_ofMembers (members : Document) (results : List (String × Decoded)) :
    (Bucket.ofMembers members results).shape =
      Bucket.ofMembers members (Decoded.shapeMembers results) := rfl

/-! ### Two decodings of one response -/

namespace Aggregation

variable {formatter formatter' : Formatter}

/-- The children have the same shapes, or the same first error, if each child does. -/
theorem map_shape_decodeChildren {children : List (String × Aggregation)}
    (ih : ∀ c ∈ children, ∀ raw, (c.2.decode formatter raw).map Decoded.shape =
      (c.2.decode formatter' raw).map Decoded.shape) (members : Document) :
    (decodeChildren formatter children members).map Decoded.shapeMembers =
      (decodeChildren formatter' children members).map Decoded.shapeMembers := by
  induction children with
  | nil => rfl
  | cons c rest ihRest =>
    have hrest := ihRest fun d hd => ih d (List.mem_cons_of_mem c hd)
    cases h : members.get? c.1 with
    | none =>
      -- a child that is absent is skipped under both formatters
      rw [decodeChildren_cons_of_absent h, decodeChildren_cons_of_absent h, hrest]
    | some value =>
      have hpart : (c.2.decodePart formatter value).map Decoded.shape =
          (c.2.decodePart formatter' value).map Decoded.shape := by
        -- a final value is formatted, but its shape is that of any value
        cases value with
        | object payload => exact ih c List.mem_cons_self (.object payload)
        | _ =>
          rw [decodePart_of_scalar rfl, decodePart_of_scalar rfl]
          rfl
      have hcons : ∀ (r : Decoded) (others : List (String × Decoded)),
          Decoded.shapeMembers ((c.1, r) :: others) =
            (c.1, r.shape) :: Decoded.shapeMembers others := fun _ _ => rfl
      rw [decodeChildren_cons_of_present h, decodeChildren_cons_of_present h]
      exact Outcome.bind_map_congr hcons hpart hrest

/-- **Two formatters lead to the same shape**, or to the same error. -/
theorem map_shape_decode (a : Aggregation) (raw : Json) :
    (a.decode formatter raw).map Decoded.shape = (a.decode formatter' raw).map Decoded.shape := by
  induction a using Aggregation.induction generalizing raw with
  | grouping g children ih =>
    have hbucket : ∀ entry, (Bucket.decode g.word
          (decodeChildren formatter children.entries) entry).map Bucket.shape =
        (Bucket.decode g.word (decodeChildren formatter' children.entries) entry).map
          Bucket.shape := by
      intro entry
      rw [Bucket.decode_eq, Bucket.decode_eq]
      cases entry.members? with
      | none => rfl
      | some members =>
        -- the key, the text and the count do not go through a formatter
        exact Outcome.map_map_congr (Bucket.shape_ofMembers members)
          (map_shape_decodeChildren ih members)
    rw [decode_grouping, decode_grouping]
    cases (raw.member? "buckets").bind Json.items? with
    | none => rfl
    | some entries =>
      -- the number and the order of the buckets are the same as well
      have hshape : ∀ bs : List Bucket,
          (Decoded.buckets bs).shape = .buckets (bs.map Bucket.shape) :=
        fun bs => congrArg Decoded.buckets (Bucket.shapeItems_eq_map bs)
      exact Outcome.map_map_congr hshape (Outcome.map_mapM_congr fun entry _ => hbucket entry)
  | filter query children ih =>
    rw [decode_filter, decode_filter]
    cases raw.members? with
    | none => rfl
    | some members =>
      have hshape : ∀ results : List (String × Decoded),
          (Decoded.bucket (Bucket.ofMembers members results).withoutKey).shape =
            .bucket (Bucket.ofMembers members (Decoded.shapeMembers results)).withoutKey :=
        fun _ => rfl
      exact Outcome.map_map_congr hshape (map_shape_decodeChildren ih members)
  | metric m =>
    rw [decode, decode, Metric.decode, Metric.decode]
    cases raw.members? with
    | none => rfl
    | some members =>
      dsimp only
      split
      · rfl
      · cases members.get? "value" <;> rfl

end Aggregation

/-! ### Metrics -/

namespace Metric

variable {formatter formatter' : Formatter} {m : Metric} {r : Decoded}

/-- The value that a part of a response has for a metric: the member `value` of an object,
and anything else itself. -/
def reported? : Json → Option Json
  | .object members => members.get? "value"
  | value => some value

/-- **A mean, sum, least or greatest value is formatted once**, whether it comes in an object
or alone. -/
theorem decodePart_eq_formatted (hkind : m.kind ∈ [.avg, .sum, .min, .max]) {part : Json}
    (h : (Aggregation.metric m).decodePart formatter part = .ok r) :
    ∃ v, reported? part = some v ∧ r = .value (formatter (some m.field) v) := by
  obtain ⟨kind, field⟩ := m
  -- statistics are not among the four kinds
  have hstats : kind ≠ .stats := by
    rintro rfl
    simp at hkind
  have hcounts : kind.counts = false := by
    cases kind <;> first | rfl | simp at hkind
  cases part with
  | object members =>
    -- in an object the value stands under its key
    rw [Aggregation.decodePart_object, Aggregation.decode, decode, Json.members?_object] at h
    simp only [if_neg hstats] at h
    cases hv : members.get? "value" with
    | none =>
      rw [hv] at h
      cases h
    | some v =>
      rw [hv] at h
      simp only [hcounts] at h
      exact ⟨v, hv, (Except.ok.inj h).symm⟩
  | _ =>
    -- what is no object is formatted as it is
    exact ⟨_, rfl, (Except.ok.inj h).symm⟩

/-- Blanks out the values of some keys. -/
def blank (keys : List String) (key : String) (value : Json) : Json :=
  if key ∈ keys then .null else value

/-- Shaping an entry that is blanked out afterwards is blanking it out beforehand. -/
theorem shapeMember_mapValues {keys : List String} {key : String} (hkey : key ∈ keys)
    (shape : Json → Json) (stats : Document) :
    (shapeMember shape stats key).mapValues (blank keys) =
      shapeMember (fun _ => .null) (stats.mapValues (blank keys)) key := by
  rw [shapeMember, shapeMember, Table.get?_mapValues]
  cases stats.get? key with
  | none => rfl
  | some value =>
    -- what is put back is blanked out, so it may as well have been null
    have hblank : blank keys key (shape value) = .null := if_pos hkey
    rw [Table.insert_mapValues, Table.swapErase_mapValues, hblank]
    rfl

/-- Shaping some entries of statistics and blanking them out leaves nothing of the shape. -/
theorem foldl_shapeMember_mapValues {keys todo : List String} (htodo : ∀ key ∈ todo, key ∈ keys)
    (shape : Json → Json) (stats : Document) :
    (todo.foldl (shapeMember shape) stats).mapValues (blank keys) =
      todo.foldl (shapeMember fun _ => .null) (stats.mapValues (blank keys)) := by
  induction todo generalizing stats with
  | nil => rfl
  | cons key rest ih =>
    -- one entry after the other, from whatever the steps before have left
    rw [List.foldl_cons, List.foldl_cons, ih (fun k hk => htodo k (List.mem_cons_of_mem key hk)),
      shapeMember_mapValues (htodo key List.mem_cons_self)]

/-- **Statistics under two formatters** have the same keys in the same order, and the same
values but for the least, the greatest and the mean. -/
theorem exists_stats_of_decodePart {r' : Decoded} {payload : Document} (hkind : m.kind = .stats)
    (h : (Aggregation.metric m).decodePart formatter (.object payload) = .ok r)
    (h' : (Aggregation.metric m).decodePart formatter' (.object payload) = .ok r') :
    ∃ stats stats', r = .value (.object stats) ∧ r' = .value (.object stats') ∧
      stats.keys = stats'.keys ∧
      ∀ key, key ∉ ["min", "max", "avg"] → stats.get? key = stats'.get? key := by
  rw [Aggregation.decodePart_object, Aggregation.decode, decode, Json.members?_object] at h h'
  simp only [if_pos hkind] at h h'
  refine ⟨_, _, (Except.ok.inj h).symm, (Except.ok.inj h').symm, ?_⟩
  -- with the three entries blanked out, the two are the same
  have hsame : ∀ shape : Json → Json,
      ((["min", "max", "avg"].foldl (shapeMember shape) payload).mapValues
        (blank ["min", "max", "avg"])) = _ :=
    fun shape => foldl_shapeMember_mapValues (fun _ h => h) shape payload
  have heq := (hsame (formatter (some m.field))).trans (hsame (formatter' (some m.field))).symm
  constructor
  · -- blanking out keeps the keys, so those are the same
    have hkeys := congrArg Table.keys heq
    rwa [Table.keys_mapValues, Table.keys_mapValues] at hkeys
  · -- and it keeps the values of all other keys, so those are the same too
    intro key hkey
    have hget := congrArg (fun t => Table.get? t key) heq
    have hblank : blank ["min", "max", "avg"] key = id := by
      funext value
      exact if_neg hkey
    simpa only [Table.get?_mapValues, hblank, Option.map_id, id] using hget

end Metric

/-! ### Leaves -/

/-- What two formatters have been applied to in the results of one part of a response. -/
structure Aggregation.LeavesFormatted (formatter formatter' : Formatter) (a : Aggregation)
    (value : Json) (r r' : Decoded) : Prop where
  /-- A mean, sum, least or greatest value is what the formatter makes of the field of the
  metric and the value in the response. -/
  metric : ∀ address m part, a.part? value address = some (.metric m, part) →
    m.kind ∈ [.avg, .sum, .min, .max] → ∃ v, Metric.reported? part = some v ∧
      r.at? address = some (.value (formatter (some m.field) v)) ∧
      r'.at? address = some (.value (formatter' (some m.field) v))
  /-- Statistics differ in the least, the greatest and the mean only. -/
  stats : ∀ address m payload, a.part? value address = some (.metric m, .object payload) →
    m.kind = .stats → ∃ stats stats', r.at? address = some (.value (.object stats)) ∧
      r'.at? address = some (.value (.object stats')) ∧ stats.keys = stats'.keys ∧
      ∀ key, key ∉ ["min", "max", "avg"] → stats.get? key = stats'.get? key

/-- **At the leaves, each result shows what its own formatter makes of the response.** -/
theorem Aggregation.leavesFormatted {formatter formatter' : Formatter} {a : Aggregation}
    {value : Json} {r r' : Decoded} (h : a.decodePart formatter value = .ok r)
    (h' : a.decodePart formatter' value = .ok r') :
    a.LeavesFormatted formatter formatter' value r r' := by
  -- both results have a leaf at the address, decoded from the same part of the response
  have hleaf : ∀ address m part, a.part? value address = some (.metric m, part) →
      ∃ leaf leaf', r.at? address = some leaf ∧ r'.at? address = some leaf' ∧
        (Aggregation.metric m).decodePart formatter part = .ok leaf ∧
        (Aggregation.metric m).decodePart formatter' part = .ok leaf' := by
    intro address m part hpart
    have hat := at?_of_decodePart h address
    have hat' := at?_of_decodePart h' address
    rw [hpart] at hat hat'
    obtain ⟨leaf, hleaf, hdecoded, -⟩ := Related.exists_of_some hat
    obtain ⟨leaf', hleaf', hdecoded', -⟩ := Related.exists_of_some hat'
    exact ⟨leaf, leaf', hleaf, hleaf', hdecoded, hdecoded'⟩
  constructor
  · -- a single value is formatted on both sides from what the response reports
    intro address m part hpart hkind
    obtain ⟨leaf, leaf', hat, hat', hdecoded, hdecoded'⟩ := hleaf address m part hpart
    obtain ⟨v, hv, rfl⟩ := Metric.decodePart_eq_formatted hkind hdecoded
    obtain ⟨v', hv', rfl⟩ := Metric.decodePart_eq_formatted hkind hdecoded'
    obtain rfl : v = v' := Option.some.inj (hv.symm.trans hv')
    exact ⟨v, hv, hat, hat'⟩
  · -- statistics are formatted in three entries only
    intro address m payload hpart hkind
    obtain ⟨leaf, leaf', hat, hat', hdecoded, hdecoded'⟩ := hleaf address m _ hpart
    obtain ⟨stats, stats', rfl, rfl, hkeys, hget⟩ :=
      Metric.exists_stats_of_decodePart hkind hdecoded hdecoded'
    exact ⟨stats, stats', hat, hat', hkeys, hget⟩

end SearchIndex
