import SearchIndex.Proofs.Aggregation.Enclosure
import SearchIndex.Proofs.Json.Same
import SearchIndex.Proofs.Table.SwapErase

/-!
# Statistics

Statistics are several values of a field in one object. The least, the greatest and the mean of
them are formatted, one after the other: each is taken out of the object, which moves the last
entry into its place, and is put back at the end. The entry that is moved may be one that has
been put back before, so it has to be shown that none is lost, doubled or formatted twice.

Up to the order of the entries such a step changes one value in place
(`Metric.shapeMember_perm`), and steps for distinct keys change as many values, each of them once
(`Metric.foldl_shapeMember_perm`). This is all that is said about the order in the main results:

* `Metric.stats_decoded` — the keys are those of the response, three values have been formatted,
  and the others are as they were; with nothing to format the object is the same as before.
* `Metric.stats_agree` — an entry of statistics is what the metric of this entry makes of the same
  value, for all entries that have such a metric but the sum. Statistics take the sum for what it
  is, and the metric takes it for a value of the field (`Metric.not_forall_stats_agree`).
-/

namespace SearchIndex

/-- The entry of statistics that a metric computes alone, if there is one. -/
def MetricKind.statKey? : MetricKind → Option String
  | .avg => some "avg"
  | .sum => some "sum"
  | .min => some "min"
  | .max => some "max"
  | .valueCount => some "count"
  | .cardinality => none
  | .stats => none

namespace Metric

variable {shape : Json → Json} {raw stats : Document} {keys : List String} {key : String}

/-! ### Formatting in place -/

/-- Shapes the values of some keys, and leaves those of all others alone. -/
def shapeAt (keys : List String) (shape : Json → Json) (key : String) (value : Json) : Json :=
  if key ∈ keys then shape value else value

theorem shapeAt_of_mem (h : key ∈ keys) : shapeAt keys shape key = shape :=
  funext fun _ => if_pos h

theorem shapeAt_of_notMem (h : key ∉ keys) : shapeAt keys shape key = id :=
  funext fun _ => if_neg h

/-- Where `key` is not among the keys, shaping its value comes on top of shaping theirs. -/
theorem shapeAt_cons (h : key ∉ keys) (k : String) (value : Json) :
    shapeAt (key :: keys) shape k value = shapeAt keys shape k (shapeAt [key] shape k value) := by
  by_cases hk : k = key
  · -- the new key is shaped in the second step, since it is not among the others
    subst hk
    rw [shapeAt_of_mem List.mem_cons_self, shapeAt_of_mem List.mem_cons_self,
      shapeAt_of_notMem h]
    rfl
  · -- any other key is treated by the first step as it is by both
    have hother : k ∉ [key] := fun hmem => hk (List.mem_singleton.mp hmem)
    have hsame : k ∈ key :: keys ↔ k ∈ keys := by rw [List.mem_cons, or_iff_right hk]
    rw [shapeAt_of_notMem hother]
    unfold shapeAt
    simp only [hsame, id]

/-- **One step** shapes the value of one key. -/
theorem shapeMember_perm (h : stats.keys.Nodup) (shape : Json → Json) (key : String) :
    (shapeMember shape stats key).entries.Perm (stats.mapValues (shapeAt [key] shape)).entries := by
  unfold shapeMember
  cases hvalue : stats.get? key with
  | none =>
    -- no entry has the key, so there is nothing to shape
    have habsent : key ∉ stats.keys := by
      rw [Table.mem_keys_iff, hvalue]
      exact Bool.false_ne_true
    have hsame : stats.mapValues (shapeAt [key] shape) = stats := by
      refine Table.mapValues_eq_self fun e he => if_neg fun hmem => habsent ?_
      rw [← List.mem_singleton.mp hmem]
      exact List.mem_map_of_mem he
    rw [hsame]
  | some value =>
    -- taking the entry out and putting it back is changing it in place, up to the order
    have hshape : shapeAt [key] shape key value = shape value := if_pos List.mem_cons_self
    have hother : ∀ k v, k ≠ key → shapeAt [key] shape k v = v := fun k v hne =>
      if_neg fun hmem => hne (List.mem_singleton.mp hmem)
    have hperm := Table.insert_swapErase_perm h hvalue hother
    rwa [hshape] at hperm

/-- **Steps for distinct keys** shape the value of each of them once. -/
theorem foldl_shapeMember_perm (hkeys : keys.Nodup) (h : stats.keys.Nodup) (shape : Json → Json) :
    (keys.foldl (shapeMember shape) stats).entries.Perm
      (stats.mapValues (shapeAt keys shape)).entries := by
  induction keys generalizing stats with
  | nil =>
    have hsame : stats.mapValues (shapeAt [] shape) = stats :=
      Table.mapValues_eq_self fun _ _ => if_neg List.not_mem_nil
    rw [hsame]
    exact .refl _
  | cons key rest ih =>
    obtain ⟨hnew, hrest⟩ := List.nodup_cons.mp hkeys
    have hstep := shapeMember_perm h shape key
    -- the keys are still distinct after the step, so the other steps can go on from there
    have hdistinct : (shapeMember shape stats key).keys.Nodup := by
      apply (hstep.map Prod.fst).nodup_iff.mpr
      show (stats.mapValues (shapeAt [key] shape)).keys.Nodup
      rwa [Table.keys_mapValues]
    -- the later steps do not shape the value of this key again
    have hboth : (stats.mapValues (shapeAt [key] shape)).mapValues (shapeAt rest shape) =
        stats.mapValues (shapeAt (key :: rest) shape) := by
      rw [Table.mapValues_mapValues]
      congr 1
      funext k value
      exact (shapeAt_cons hnew k value).symm
    rw [List.foldl_cons, ← hboth]
    exact (ih hrest hdistinct).trans (hstep.map _)

/-! ### Decoded statistics -/

/-- The entries of statistics that are values of the field. -/
def fieldKeys : List String := ["min", "max", "avg"]

/-- Statistics have kept their keys, each once, and the values of all entries but those that are
values of the field, which have been shaped. -/
structure Shaped (shape : Json → Json) (raw stats : Document) : Prop where
  keys_perm : stats.keys.Perm raw.keys
  distinct : stats.keys.Nodup
  shaped : ∀ key ∈ fieldKeys, stats.get? key = (raw.get? key).map shape
  kept : ∀ key, key ∉ fieldKeys → stats.get? key = raw.get? key

/-- Statistics are decoded by shaping three entries, one after the other. -/
theorem decode_stats (formatter : Formatter) (field : String) (raw : Document) :
    (Aggregation.metric ⟨.stats, field⟩).decode formatter (.object raw) =
      .ok (.value (.object (fieldKeys.foldl (shapeMember (formatter (some field))) raw))) := rfl

/-- What a key finds in decoded statistics is what it has found before, shaped if it is one of the
three. -/
theorem get?_foldl_shapeMember (h : raw.keys.Nodup) (shape : Json → Json) (key : String) :
    (fieldKeys.foldl (shapeMember shape) raw).get? key =
      (raw.get? key).map (shapeAt fieldKeys shape key) := by
  have hperm := foldl_shapeMember_perm (by decide : fieldKeys.Nodup) h shape
  have hdistinct : (raw.mapValues (shapeAt fieldKeys shape)).keys.Nodup := by
    rwa [Table.keys_mapValues]
  rw [Table.get?_of_perm hdistinct hperm.symm, Table.get?_mapValues]

/-- **Decoded statistics are those of the response, with three entries shaped.** -/
theorem shaped_foldl (h : raw.keys.Nodup) (shape : Json → Json) :
    Shaped shape raw (fieldKeys.foldl (shapeMember shape) raw) := by
  have hkeys : (fieldKeys.foldl (shapeMember shape) raw).keys.Perm raw.keys := by
    rw [← Table.keys_mapValues (shapeAt fieldKeys shape) raw]
    exact (foldl_shapeMember_perm (by decide) h shape).map Prod.fst
  refine ⟨hkeys, hkeys.nodup_iff.mpr h, fun key hkey => ?_, fun key hkey => ?_⟩
  · rw [get?_foldl_shapeMember h, shapeAt_of_mem hkey]
  · rw [get?_foldl_shapeMember h, shapeAt_of_notMem hkey, Option.map_id, id]

/-- With nothing to shape, the entries are the same in another order. -/
theorem foldl_shapeMember_id_perm (h : raw.keys.Nodup) :
    (fieldKeys.foldl (shapeMember id) raw).entries.Perm raw.entries := by
  have hperm := foldl_shapeMember_perm (by decide : fieldKeys.Nodup) h id
  have hsame : raw.mapValues (shapeAt fieldKeys id) = raw :=
    Table.mapValues_eq_self fun e _ => ite_self e.2
  rwa [hsame] at hperm

/-- **Statistics keep their entries.** Of the object in a response, whatever its keys and their
order, the keys are kept, each once, and all values but the least, the greatest and the mean,
which are what the formatter makes of them for the field. A formatter that leaves values as they
are leaves the same entries, and so an equal object. -/
theorem stats_decoded {raw : Document} (h : (Json.object raw).WellFormed) (field : String) :
    (∀ formatter : Formatter, ∃ stats,
      (Aggregation.metric ⟨.stats, field⟩).decode formatter (.object raw) =
          .ok (.value (.object stats)) ∧
        Shaped (formatter (some field)) raw stats) ∧
    ∃ stats, (Aggregation.metric ⟨.stats, field⟩).decode Formatter.passthrough (.object raw) =
        .ok (.value (.object stats)) ∧
      stats.entries.Perm raw.entries ∧ (Json.object stats).same (.object raw) = true := by
  refine ⟨fun formatter => ⟨_, decode_stats formatter field raw, ?_⟩,
    _, decode_stats Formatter.passthrough field raw, ?_, ?_⟩
  · exact shaped_foldl h.distinct (formatter (some field))
  · exact foldl_shapeMember_id_perm h.distinct
  · have hperm := foldl_shapeMember_id_perm h.distinct
    have hdistinct := (hperm.map Prod.fst).nodup_iff.mpr h.distinct
    -- every key finds the same value, which equals itself
    apply (Document.same_iff hdistinct h.distinct).mpr
    intro key
    rw [← Table.get?_of_perm hdistinct hperm]
    exact (Document.Agrees.refl h).get? key

/-- Statistics of dates. All but their number are values of the field or made of such. -/
def dateStats : Document :=
  ⟨[("count", .ofNat 2), ("min", .ofNat 0), ("max", .ofNat 0), ("avg", .ofNat 0),
    ("sum", .ofNat 0)]⟩

/-- The statistics are a document, with distinct keys and numbers under them. -/
theorem dateStats_wellFormed : (Json.object dateStats).WellFormed := by
  refine .object (by decide) fun e he => ?_
  have hnumber : ∃ n, e.2 = Json.ofNat n := by
    simp only [dateStats, List.mem_cons, List.not_mem_nil, or_false] at he
    rcases he with rfl | rfl | rfl | rfl | rfl <;> exact ⟨_, rfl⟩
  obtain ⟨n, hn⟩ := hnumber
  rw [hn]
  exact .scalar rfl rfl

/-- Three of the dates become timestamps; they have changed places with the sum. -/
theorem dateStats_decoded : (Json.object dateStats).WellFormed ∧ ∃ stats,
    (Aggregation.metric ⟨.stats, "created_at"⟩).decode (.ofDefinition posts)
        (.object dateStats) = .ok (.value (.object stats)) ∧
      stats.keys.Perm dateStats.keys ∧
      stats.get? "min" = some (.string "1970-01-01T00:00:00.000Z") ∧
      stats.get? "sum" = some (.ofNat 0) ∧
      stats.keys = ["count", "sum", "min", "max", "avg"] := by
  obtain ⟨stats, hstats, hshaped⟩ := (stats_decoded dateStats_wellFormed "created_at").1
    (.ofDefinition posts)
  refine ⟨dateStats_wellFormed, stats, hstats, hshaped.keys_perm, ?_, ?_, ?_⟩
  · rw [hshaped.shaped "min" (by decide)]
    exact congrArg some posts_format_date
  · -- the sum is no value of the field and stays a number
    exact hshaped.kept "sum" (by decide)
  · -- the keys are in the order that taking out and putting back has left
    obtain rfl := Json.object.inj (Decoded.value.inj (Except.ok.inj hstats))
    rfl

/-! ### Single metrics -/

/-- An entry of statistics beside what the metric of this entry makes of the same value. The two
are the same but for the sum, which only the metric formats. -/
structure StatAgrees (formatter : Formatter) (m : Metric) (value stat : Json) : Prop where
  alike : m.kind ≠ .sum →
    (Aggregation.metric m).decode formatter (enclosed value) = .ok (.value stat)
  sum : m.kind = .sum → stat = value ∧
    (Aggregation.metric m).decode formatter (enclosed value) =
      .ok (.value (formatter (some m.field) value))

/-- What statistics format is what a metric formats, the sum apart. -/
theorem mem_fieldKeys_iff {kind : MetricKind} (hkey : kind.statKey? = some key)
    (hsum : kind ≠ .sum) : key ∈ fieldKeys ↔ ¬kind.counts = true := by
  cases kind with
  | sum => exact absurd rfl hsum
  | cardinality => cases hkey
  | stats => cases hkey
  | _ =>
    cases hkey
    decide

/-- The entry of a kind is beside the metric of this kind as it should be. -/
theorem statAgrees_shapeAt {kind : MetricKind} (hkey : kind.statKey? = some key)
    (formatter : Formatter) (field : String) (value : Json) :
    StatAgrees formatter ⟨kind, field⟩ value
      (shapeAt fieldKeys (formatter (some field)) key value) := by
  -- statistics themselves have no entry in statistics
  have hsingle : kind ≠ .stats := by
    rintro rfl
    cases hkey
  constructor
  · intro hsum
    have hformatted := mem_fieldKeys_iff hkey hsum
    rw [decode_enclosed hsingle]
    show Except.ok (Decoded.value (if kind.counts then value else formatter (some field) value)) = _
    unfold shapeAt
    by_cases hcounts : kind.counts = true
    · -- a count is formatted by neither
      rw [if_pos hcounts, if_neg fun hmem => hformatted.mp hmem hcounts]
    · -- any other value of the field is formatted by both
      rw [if_neg hcounts, if_pos (hformatted.mpr hcounts)]
  · -- the sum is not among the three entries, but the metric formats it
    rintro (rfl : kind = .sum)
    cases hkey
    exact ⟨rfl, decode_enclosed hsingle formatter value⟩

/-- **Statistics agree with single metrics but for the sum.** The least, the greatest and the
mean value and the number of documents are there exactly if the response has them, and are what
the metric of the same field makes of the same value. The sum is the value of the response
itself, of which the metric makes what the formatter makes of it for the field. -/
theorem stats_agree {raw : Document} (h : raw.keys.Nodup) (formatter : Formatter)
    (field : String) : ∃ stats,
    (Aggregation.metric ⟨.stats, field⟩).decode formatter (.object raw) =
        .ok (.value (.object stats)) ∧
      ∀ kind key, MetricKind.statKey? kind = some key →
        Option.Rel (StatAgrees formatter ⟨kind, field⟩) (raw.get? key) (stats.get? key) := by
  refine ⟨_, decode_stats formatter field raw, fun kind key hkey => ?_⟩
  rw [get?_foldl_shapeMember h]
  cases raw.get? key with
  | none =>
    -- a value that the response lacks is missing from the statistics
    exact .none
  | some value => exact .some (statAgrees_shapeAt hkey formatter field value)

/-- The sum of dates in statistics is a number, and the metric makes a timestamp of it. -/
theorem dateStats_agree : dateStats.keys.Nodup ∧ ∃ stats,
    (Aggregation.metric ⟨.stats, "created_at"⟩).decode (.ofDefinition posts)
        (.object dateStats) = .ok (.value (.object stats)) ∧
      (∃ least, stats.get? "min" = some least ∧
        (Aggregation.metric ⟨.min, "created_at"⟩).decode (.ofDefinition posts)
          (enclosed (.ofNat 0)) = .ok (.value least)) ∧
      stats.get? "sum" = some (.ofNat 0) ∧
      (Aggregation.metric ⟨.sum, "created_at"⟩).decode (.ofDefinition posts)
        (enclosed (.ofNat 0)) = .ok (.value (.string "1970-01-01T00:00:00.000Z")) := by
  have hdistinct : dateStats.keys.Nodup := dateStats_wellFormed.distinct
  obtain ⟨stats, hstats, hagree⟩ := stats_agree hdistinct (.ofDefinition posts) "created_at"
  obtain ⟨least, hleast, hmin⟩ := Related.exists_of_some (hagree .min "min" rfl)
  obtain ⟨sum, hsum, hsums⟩ := Related.exists_of_some (hagree .sum "sum" rfl)
  obtain ⟨hraw, hmetric⟩ := hsums.sum rfl
  refine ⟨hdistinct, stats, hstats, ⟨least, hleast, hmin.alike (by decide)⟩, hraw ▸ hsum, ?_⟩
  rw [← posts_format_date]
  exact hmetric

/-- **Not every entry of statistics agrees with its metric.** -/
theorem not_forall_stats_agree :
    ¬∀ (formatter : Formatter) (field : String) (raw stats : Document), raw.keys.Nodup →
      (Aggregation.metric ⟨.stats, field⟩).decode formatter (.object raw) =
        .ok (.value (.object stats)) →
      ∀ kind key, MetricKind.statKey? kind = some key →
        ∀ value stat, raw.get? key = some value → stats.get? key = some stat →
          (Aggregation.metric ⟨kind, field⟩).decode formatter (enclosed value) =
            .ok (.value stat) := by
  intro h
  -- of the sum alone, statistics are the number
  have hsame := h (.ofDefinition posts) "created_at" ⟨[("sum", .ofNat 0)]⟩ ⟨[("sum", .ofNat 0)]⟩
    (by decide) rfl .sum "sum" rfl (.ofNat 0) (.ofNat 0) rfl rfl
  -- whereas the metric makes a timestamp of it
  have hmetric : (Aggregation.metric ⟨.sum, "created_at"⟩).decode (.ofDefinition posts)
      (enclosed (.ofNat 0)) = .ok (.value (.string "1970-01-01T00:00:00.000Z")) := rfl
  rw [hmetric] at hsame
  cases hsame

end Metric

end SearchIndex
