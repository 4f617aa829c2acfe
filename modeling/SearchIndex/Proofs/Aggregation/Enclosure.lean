import SearchIndex.Definition.Draft
import SearchIndex.Proofs.Aggregation.Session
import SearchIndex.Proofs.Aggregation.Tree
import SearchIndex.Proofs.Table.Order

/-!
# Bare and enclosed values

The value of a metric stands in a response under `value` in an object of its own, or bare under
the name of the metric. The two are read in two places. An object is read by the metric, which
knows its kind and hands a value to the formatter unless it counts documents; a bare value is
read by the parent, which knows the field only and hands every value to the formatter.

So it depends on the kind whether the form matters (`Metric.decodePart_eq_enclosed_iff`): means,
sums, least and greatest values are read alike, and a count only if the formatter leaves it as it
is. Where it does not matter for a metric (`Metric.FormFree`) it does not matter for the trees
above it either: `Aggregation.Encloses` is the change of a response in which one bare value, at
any depth, is enclosed in an object, and `Aggregation.decodePart_eq_of_encloses` says that this
change is not noticed.
-/

namespace SearchIndex

/-! ### One value -/

namespace Metric

variable {m : Metric} {formatter : Formatter} {v : Json}

/-- A value in an object of its own. -/
def enclosed (v : Json) : Json := .ofMembers [("value", v)]

/-- **An enclosed value is formatted unless it is a count.** -/
theorem decode_enclosed (hkind : m.kind ≠ .stats) (formatter : Formatter) (v : Json) :
    (Aggregation.metric m).decode formatter (enclosed v) =
      .ok (.value (if m.kind.counts then v else formatter (some m.field) v)) := by
  unfold Aggregation.decode decode enclosed Json.ofMembers
  rw [Json.members?_object]
  dsimp only
  rw [if_neg hkind]
  rfl

/-- The metric reads a value alike whether it stands bare or enclosed. -/
structure FormFree (formatter : Formatter) (m : Metric) (v : Json) : Prop where
  single : m.kind ≠ .stats
  /-- A count is such that the formatter leaves it as it is. -/
  count : m.kind.counts = true → formatter (some m.field) v = v

/-- **A bare value is read as an enclosed one is** if it is the value of a field, or a count that
the formatter leaves as it is. -/
theorem decodePart_eq_enclosed_iff (hkind : m.kind ≠ .stats) (hbare : v.members? = none) :
    (Aggregation.metric m).decodePart formatter v =
        (Aggregation.metric m).decodePart formatter (enclosed v) ↔
      (m.kind.counts = true → formatter (some m.field) v = v) := by
  have henclosed : (Aggregation.metric m).decodePart formatter (enclosed v) =
      .ok (.value (if m.kind.counts then v else formatter (some m.field) v)) :=
    decode_enclosed hkind formatter v
  rw [henclosed, Aggregation.decodePart_of_scalar hbare, Except.ok.injEq, Decoded.value.injEq]
  show formatter (some m.field) v = _ ↔ _
  by_cases hcounts : m.kind.counts = true
  · -- a count: the bare value is formatted, and the enclosed one is not
    rw [if_pos hcounts]
    exact ⟨fun heq _ => heq, fun h => h hcounts⟩
  · -- any other metric formats both
    rw [if_neg hcounts]
    exact ⟨fun _ h => absurd h hcounts, fun _ => rfl⟩

/-- The form does not matter for a metric that computes a value of its field. -/
theorem FormFree.of_kind (hkind : m.kind ∈ [.avg, .sum, .min, .max]) (formatter : Formatter)
    (v : Json) : m.FormFree formatter v := by
  -- the four of them compute one value each, and count nothing
  have hkinds : ∀ kind ∈ [MetricKind.avg, .sum, .min, .max],
      kind ≠ .stats ∧ kind.counts = false := by decide
  obtain ⟨hsingle, huncounted⟩ := hkinds m.kind hkind
  refine ⟨hsingle, fun hcounts => ?_⟩
  rw [huncounted] at hcounts
  cases hcounts

/-- A value that is read alike in both forms is decoded alike. -/
theorem FormFree.decodePart_eq (h : m.FormFree formatter v) (hbare : v.members? = none) :
    (Aggregation.metric m).decodePart formatter v =
      (Aggregation.metric m).decodePart formatter (enclosed v) :=
  (decodePart_eq_enclosed_iff h.single hbare).mpr h.count

end Metric

/-! ### One value in a tree -/

namespace Aggregation

variable {formatter : Formatter} {a child : Aggregation} {children : Aggregations}
  {members : Document} {name : String} {v w : Json}

/-- One bare value that a metric reads is enclosed in an object; the metric is the aggregation
itself, or a child registered in one of the buckets, at any depth. Only values are enclosed that
`P` allows for the metric. -/
inductive Encloses (P : Metric → Json → Prop) : Aggregation → Json → Json → Prop where
  | metric {m : Metric} {v : Json} (bare : v.members? = none) (allowed : P m v) :
      Encloses P (.metric m) v (Metric.enclosed v)
  /-- In an entry of the list of buckets of a grouping. -/
  | grouping {g : Grouping} {children : Aggregations} {child : Aggregation}
      {members entry : Document} {before after : List Json} {name : String} {v w : Json}
      (names : children.WellNamed) (registered : children.get? name = some child)
      (listed : members.get? "buckets" = some (.array (before ++ .object entry :: after)))
      (present : entry.get? name = some v) (inside : Encloses P child v w) :
      Encloses P (.grouping g children) (.object members) (.object (members.insert "buckets"
        (.array (before ++ .object (entry.insert name w) :: after))))
  /-- In the bucket of a filter. -/
  | filter {query : Query} {children : Aggregations} {child : Aggregation} {members : Document}
      {name : String} {v w : Json} (names : children.WellNamed)
      (registered : children.get? name = some child) (present : members.get? name = some v)
      (inside : Encloses P child v w) :
      Encloses P (.filter query children) (.object members) (.object (members.insert name w))

/-- A child is read again with another part, of which it makes the same. The other children do
not see the change, since they have other names. -/
theorem decodeChildren_insert (names : children.WellNamed)
    (registered : children.get? name = some child) (present : members.get? name = some v)
    (hsame : child.decodePart formatter v = child.decodePart formatter w) :
    decodeChildren formatter children.entries (members.insert name w) =
      decodeChildren formatter children.entries members := by
  refine decodeChildren_congr fun c hc => ?_
  by_cases hname : c.1 = name
  · -- there is one child of this name only
    have hfound : children.get? name = some c.2 :=
      (Table.get?_eq_some_iff names.distinct).mpr (hname ▸ hc)
    obtain rfl : child = c.2 := Option.some.inj (registered.symm.trans hfound)
    have hwritten : (members.insert name w).get? c.1 = some w := by
      rw [Table.get?_insert, if_pos hname]
    have hbefore : members.get? c.1 = some v := hname ▸ present
    rw [decodeChild_of_present hwritten, decodeChild_of_present hbefore, hsame]
  · -- a child of another name does not see the change
    unfold decodeChild
    rw [Table.get?_insert, if_neg hname]

/-- A bucket does not look at the names of its children. -/
theorem ofMembers_insert (h : name ∉ Aggregations.reservedNames) (members : Document) (w : Json) :
    Bucket.ofMembers (members.insert name w) = Bucket.ofMembers members := by
  have hother : ∀ key ∈ Aggregations.reservedNames,
      (members.insert name w).get? key = members.get? key := by
    intro key hkey
    rw [Table.get?_insert, if_neg (ne_of_mem_of_not_mem hkey h)]
  funext results
  unfold Bucket.ofMembers
  rw [hother "key" (by decide), hother "key_as_string" (by decide), hother "doc_count" (by decide)]

/-- No child is called as a bucket calls one of its own members. -/
theorem notMem_reservedNames (names : children.WellNamed)
    (registered : children.get? name = some child) : name ∉ Aggregations.reservedNames :=
  (names.allowed name (Table.mem_keys_iff.mpr (registered ▸ rfl))).2

/-- An entry of a list of buckets is decoded as before with another part for a child that makes
the same of both. -/
theorem decodeBucket_insert (word : String) (names : children.WellNamed)
    (registered : children.get? name = some child) (present : members.get? name = some v)
    (hsame : child.decodePart formatter v = child.decodePart formatter w) :
    Bucket.decode word (decodeChildren formatter children.entries)
        (.object (members.insert name w)) =
      Bucket.decode word (decodeChildren formatter children.entries) (.object members) := by
  have hreserved := notMem_reservedNames names registered
  unfold Bucket.decode
  rw [Json.members?_object, Json.members?_object]
  dsimp only
  rw [decodeChildren_insert names registered present hsame, ofMembers_insert hreserved]

/-- **A value that is enclosed where the form does not matter is read as before.** The induction
is on the way down to the metric; each step on it hands over the outcome of the step below. -/
theorem decodePart_eq_of_encloses (h : a.Encloses (Metric.FormFree formatter) v w) :
    a.decodePart formatter v = a.decodePart formatter w := by
  induction h with
  | metric bare allowed => exact allowed.decodePart_eq bare
  | @grouping g children child members entry before after name v w names registered listed present
      _ ih =>
    have hentry := (decodeBucket_insert g.word names registered present ih).symm
    -- the entries before and after it are the same, and so is their order
    have hsame : ∀ entries : List Json, List.Forall₂ (fun x y =>
        Bucket.decode g.word (decodeChildren formatter children.entries) x =
          Bucket.decode g.word (decodeChildren formatter children.entries) y) entries entries :=
      fun entries => List.forall₂_same.mpr fun _ _ => rfl
    have hentries := Outcome.mapM_eq_mapM
      (List.rel_append (hsame before) (.cons hentry (hsame after)))
    have hlisted : (Json.object members).member? "buckets" =
        some (.array (before ++ .object entry :: after)) := listed
    have hwritten : (Json.object (members.insert "buckets"
          (.array (before ++ .object (entry.insert name w) :: after)))).member? "buckets" =
        some (.array (before ++ .object (entry.insert name w) :: after)) := by
      rw [Json.member?_object, Table.get?_insert, if_pos rfl]
    rw [decodePart_object, decodePart_object, decode_grouping_of_entries hlisted,
      decode_grouping_of_entries hwritten, hentries]
  | @filter query children child members name v w names registered present _ ih =>
    -- the members of a filter are those of its one bucket
    have hreserved := notMem_reservedNames names registered
    -- both are decoded as objects, from the members that have been found
    rw [decodePart_object, decodePart_object, decode_filter, decode_filter, Json.members?_object,
      Json.members?_object, Outcome.require_some, Outcome.require_some]
    show (decodeChildren formatter children.entries members).map _ =
      (decodeChildren formatter children.entries (members.insert name w)).map _
    rw [decodeChildren_insert names registered present ih, ofMembers_insert hreserved]

end Aggregation

/-! ### Values of dates -/

/-- Posts, which have a number and the date on which they were written. -/
def posts : Definition :=
  (Draft.empty.registerAll [.typed "id" "integer", .typed "created_at" "date"]).freeze

/-- A value of the date of posts becomes a timestamp, also where it is no instant. -/
theorem posts_format_date : Formatter.ofDefinition posts (some "created_at") (.ofNat 0) =
    .string "1970-01-01T00:00:00.000Z" := by
  rfl

end SearchIndex
