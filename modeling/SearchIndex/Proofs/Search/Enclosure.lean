import SearchIndex.Proofs.Aggregation.Enclosure
import SearchIndex.Proofs.Search.Response
import Mathlib.Logic.Relation

/-!
# Bare and enclosed values in the response of a search

The engine may put the value of a metric into an object of its own or leave it bare, in every
part of a response. The main result, `Search.enclosed_values`, says when this may be done without
anything becoming of it: any number of means, sums, least and greatest values can change their
form, at any depth and in both directions, and the response is decoded as before, result or
error. Counts are the exception. An enclosed count is a number of documents, but a bare one is
handed to the formatter as if it were a value of the field (`Search.not_forall_form_free`), so it
can change its form only where the formatter leaves it as it is.
-/

namespace SearchIndex.Search

variable {s : Search} {formatter : Formatter} {raw raw' : Json}

/-- One bare value in the part of a response for a registered aggregation is enclosed in an
object. -/
inductive Encloses (P : Metric → Json → Prop) (s : Search) : Json → Json → Prop where
  | intro {members reported : Document} {name : String} {a : Aggregation} {v w : Json}
      (names : Aggregations.WellNamed s.aggregations)
      (registered : s.aggregations.get? name = some a)
      (listed : members.get? "aggregations" = some (.object reported))
      (present : reported.get? name = some v) (inside : a.Encloses P v w) :
      Encloses P s (.object members)
        (.object (members.insert "aggregations" (.object (reported.insert name w))))

/-- The change is inside the aggregations, and is not noticed there. -/
theorem decode_eq_of_encloses (h : s.Encloses (Metric.FormFree formatter) raw raw') :
    s.decode formatter raw = s.decode formatter raw' := by
  obtain @⟨members, reported, name, a, v, w, names, registered, listed, present, inside⟩ := h
  -- the part of the one aggregation is decoded as before
  have hsame := Aggregation.decodePart_eq_of_encloses inside
  have haggregations : s.decodeAggregations formatter (some (.object reported)) =
      s.decodeAggregations formatter (some (.object (reported.insert name w))) := by
    show (Aggregation.decodeChildren formatter s.aggregations.entries reported).map Table.mk =
      (Aggregation.decodeChildren formatter s.aggregations.entries (reported.insert name w)).map
        Table.mk
    rw [Aggregation.decodeChildren_insert names registered present hsame]
  -- the hits stand under another key
  have hhits : (members.insert "aggregations" (.object (reported.insert name w))).get? "hits" =
      members.get? "hits" := by
    rw [Table.get?_insert, if_neg (by decide)]
  rw [decode_eq, decode_eq, Json.member?_object, Json.member?_object, Json.member?_object,
    Json.member?_object, hhits, Table.get?_insert, if_pos rfl, listed, haggregations]

/-- **The form of a value matters for counts only.** A metric other than statistics makes of a
bare value what the formatter makes of it for the field, and of an enclosed value the same,
unless it counts documents; so a form matters exactly where a count is not left as it is by the
formatter. What does not matter for a metric does not matter in a tree of aggregations, nor in
the response of a search: the outcome is the same after any number of bare values have been
enclosed or set free. -/
theorem enclosed_values (formatter : Formatter) :
    (∀ (m : Metric) (v : Json), m.kind ≠ .stats → v.members? = none →
      (Aggregation.metric m).decodePart formatter v =
          .ok (.value (formatter (some m.field) v)) ∧
        (Aggregation.metric m).decodePart formatter (Metric.enclosed v) =
          .ok (.value (if m.kind.counts then v else formatter (some m.field) v)) ∧
        ((Aggregation.metric m).decodePart formatter v =
            (Aggregation.metric m).decodePart formatter (Metric.enclosed v) ↔
          m.FormFree formatter v)) ∧
    (∀ (m : Metric) (v : Json), m.kind ∈ [.avg, .sum, .min, .max] → m.FormFree formatter v) ∧
    (∀ (a : Aggregation) (part part' : Json),
      Relation.EqvGen (a.Encloses (Metric.FormFree formatter)) part part' →
        a.decodePart formatter part = a.decodePart formatter part') ∧
    ∀ (s : Search) (raw raw' : Json),
      Relation.EqvGen (s.Encloses (Metric.FormFree formatter)) raw raw' →
        s.decode formatter raw = s.decode formatter raw' := by
  refine ⟨fun m v hkind hbare => ⟨?_, ?_, ?_⟩, fun m v hkind => ?_, fun a part part' h => ?_,
    fun s raw raw' h => ?_⟩
  · exact Aggregation.decodePart_of_scalar hbare formatter (.metric m)
  · exact Metric.decode_enclosed hkind formatter v
  · rw [Metric.decodePart_eq_enclosed_iff hkind hbare]
    -- a form that does not matter is one of a count that the formatter leaves alone
    exact ⟨fun hcount => ⟨hkind, hcount⟩, Metric.FormFree.count⟩
  · exact Metric.FormFree.of_kind hkind formatter v
  -- what one step leaves as it is, is a function on the classes of the equivalence
  · exact congrArg (Quot.lift (a.decodePart formatter) fun _ _ =>
      Aggregation.decodePart_eq_of_encloses) (Quot.eqvGen_sound h)
  · exact congrArg (Quot.lift (s.decode formatter) fun _ _ => decode_eq_of_encloses)
      (Quot.eqvGen_sound h)

/-- **Not every metric reads a value alike in both forms.** The number of posts by date is given
to the formatter if it is bare, and comes out as a timestamp. -/
theorem not_forall_form_free :
    ¬∀ (formatter : Formatter) (m : Metric) (name : String) (v : Json),
    m.kind ≠ .stats → v.members? = none →
      Aggregations.decode ⟨[(name, .metric m)]⟩ formatter ⟨[(name, v)]⟩ =
        Aggregations.decode ⟨[(name, .metric m)]⟩ formatter ⟨[(name, Metric.enclosed v)]⟩ := by
  intro h
  have hsame := h (.ofDefinition posts) ⟨.valueCount, "created_at"⟩ "posts" (.ofNat 0)
    (by decide) rfl
  -- the formatter takes the bare count for milliseconds
  have hbare : Aggregations.decode ⟨[("posts", .metric ⟨.valueCount, "created_at"⟩)]⟩
      (.ofDefinition posts) ⟨[("posts", .ofNat 0)]⟩ =
        .ok ⟨[("posts", .value (.string "1970-01-01T00:00:00.000Z"))]⟩ := rfl
  have henclosed : Aggregations.decode ⟨[("posts", .metric ⟨.valueCount, "created_at"⟩)]⟩
      (.ofDefinition posts) ⟨[("posts", Metric.enclosed (.ofNat 0))]⟩ =
        .ok ⟨[("posts", .value (.ofNat 0))]⟩ := rfl
  rw [hbare, henclosed] at hsame
  cases hsame

/-- The number of posts, with the date of the last one. -/
def postCounts : Aggregations :=
  ⟨[("posts", .metric ⟨.valueCount, "id"⟩), ("last", .metric ⟨.max, "created_at"⟩)]⟩

/-- The posts of each author. -/
def byAuthor : Aggregation := .grouping (.terms ⟨"author", none, none⟩) postCounts

/-- A search for the posts of each author. -/
def authors : Search := { empty with aggregations := ⟨[("authors", byAuthor)]⟩ }

/-- The entry of one author. -/
def authorEntry (count last : Json) : Document :=
  ⟨[("key", .string "ann"), ("posts", count), ("last", last)]⟩

/-- The part of a response with the entry of one author. -/
def authorPart (entry : Document) : Document := ⟨[("buckets", .array [.object entry])]⟩

/-- A response with a part for authors. -/
def authorReport (part : Document) : Document :=
  ⟨[("hits", .ofMembers []), ("aggregations", .ofMembers [("authors", .object part)])]⟩

/-- The number of posts is enclosed and the date of the last one set free, the one after the
other. A timestamp is made of the date in both forms. -/
theorem authorReport_form_free :
    let formatter := Formatter.ofDefinition posts
    let before := authorPart (authorEntry (.ofNat 3) (Metric.enclosed (.ofNat 0)))
    let after := authorPart (authorEntry (Metric.enclosed (.ofNat 3)) (.ofNat 0))
    (Metric.mk .valueCount "id").kind ≠ .stats ∧ (Json.ofNat 3).members? = none ∧
    (Metric.mk .valueCount "id").FormFree formatter (.ofNat 3) ∧
    (Metric.mk .max "created_at").kind ∈ [.avg, .sum, .min, .max] ∧
    (Relation.EqvGen (byAuthor.Encloses (Metric.FormFree formatter)) (.object before)
        (.object after) ∧
      byAuthor.decodePart formatter (.object before) =
        byAuthor.decodePart formatter (.object after)) ∧
    (Relation.EqvGen (authors.Encloses (Metric.FormFree formatter))
        (.object (authorReport before)) (.object (authorReport after)) ∧
      authors.decode formatter (.object (authorReport before)) =
        authors.decode formatter (.object (authorReport after))) ∧
    ∃ r, authors.decode formatter (.object (authorReport before)) = .ok r := by
  intro formatter before after
  obtain ⟨hmetric, hfree, htrees, hsearches⟩ := enclosed_values formatter
  have hkind : (Metric.mk .valueCount "id").kind ≠ .stats := by decide
  have hmax : (Metric.mk .max "created_at").kind ∈ [MetricKind.avg, .sum, .min, .max] := by decide
  -- the formatter leaves a number of posts as it is, so its form does not matter
  have hcount : (Metric.mk .valueCount "id").FormFree formatter (.ofNat 3) :=
    (hmetric ⟨.valueCount, "id"⟩ (.ofNat 3) hkind rfl).2.2.mp rfl
  have hdate : (Metric.mk .max "created_at").FormFree formatter (.ofNat 0) := hfree _ _ hmax
  have hnames : Aggregations.WellNamed postCounts := ⟨by decide, by decide⟩
  have hposts : byAuthor.Encloses (Metric.FormFree formatter) (.object before)
      (.object (authorPart (authorEntry (Metric.enclosed (.ofNat 3))
        (Metric.enclosed (.ofNat 0))))) :=
    @Aggregation.Encloses.grouping _ _ _ _ before _ [] [] "posts" _ _ hnames rfl rfl rfl
      (.metric rfl hcount)
  -- the other change goes the opposite way, to the same report
  have hlast : byAuthor.Encloses (Metric.FormFree formatter) (.object after)
      (.object (authorPart (authorEntry (Metric.enclosed (.ofNat 3))
        (Metric.enclosed (.ofNat 0))))) :=
    @Aggregation.Encloses.grouping _ _ _ _ after _ [] [] "last" _ _ hnames rfl rfl rfl
      (.metric rfl hdate)
  have hroot : Aggregations.WellNamed authors.aggregations := ⟨by decide, by decide⟩
  -- what is changed in the part is changed in the whole report
  have hreport : ∀ part part' : Document,
      byAuthor.Encloses (Metric.FormFree formatter) (.object part) (.object part') →
        authors.Encloses (Metric.FormFree formatter) (.object (authorReport part))
          (.object (authorReport part')) :=
    fun part part' h =>
      @Encloses.intro _ _ (authorReport part) _ "authors" _ _ _ hroot rfl rfl rfl h
  have hparts := Relation.EqvGen.trans _ _ _ (.rel _ _ hposts) (.symm _ _ (.rel _ _ hlast))
  have hreports := Relation.EqvGen.trans _ _ _ (.rel _ _ (hreport _ _ hposts))
    (.symm _ _ (.rel _ _ (hreport _ _ hlast)))
  exact ⟨hkind, rfl, hcount, hmax, ⟨hparts, htrees _ _ _ hparts⟩,
    ⟨hreports, hsearches _ _ _ hreports⟩, _, rfl⟩

end SearchIndex.Search
