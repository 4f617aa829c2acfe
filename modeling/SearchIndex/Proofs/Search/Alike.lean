import SearchIndex.Proofs.Aggregation.Alike
import SearchIndex.Search

/-!
# Requests told apart by their bodies

What a search asks for is lost on the engine unless its body says so. The main result,
`Search.bodies_alike_iff`, says that the body says all of it: two searches whose quantities
are finite have the same body exactly if they are the same search (`Search.Alike`), with the
same query, the same page, the same fields and order, and the same aggregations with all that
is inside them.
-/

namespace SearchIndex

/-- The same search: the same query, page, fields and order, and the same aggregations under
the same names in the same order. -/
structure Search.Alike (s s' : Search) : Prop where
  query : Option.Rel Query.Alike s.query s'.query
  size : s.size = s'.size
  start : s.start = s'.start
  source : s.source = s'.source
  sort : s.sort = s'.sort
  aggregations : Aggregation.AlikeList s.aggregations.entries s'.aggregations.entries

/-- The word of a direction tells which one it is. -/
theorem SortOrder.word_inj {o o' : SortOrder} : o.word = o'.word ↔ o = o' := by
  cases o <;> cases o' <;> simp [word]

namespace Search

variable {s s' : Search}

/-- The quantities among the parameters of a search. -/
def quantities (s : Search) : List Quantity :=
  s.query.toList.flatMap Query.quantities ++ Aggregation.quantitiesOf s.aggregations.entries

/-- All quantities of the search are finite. -/
def Finite (s : Search) : Prop := ∀ x ∈ s.quantities, x.IsFinite

instance (s : Search) : Decidable s.Finite :=
  inferInstanceAs (Decidable (∀ x ∈ s.quantities, x.IsFinite))

/-- The list of sorts as a member of the body, if there are any. -/
def sort? (sort : List (String × SortOrder)) : Option Json :=
  Query.clauses? (sort.map fun e => sortClause e.1 e.2)

/-- **The body of a search** holds in this order what is set of the parameters, and the
aggregations if there are any. -/
theorem render_eq (s : Search) :
    s.render = Document.ofOptional
      [("query", s.query.map (fun q => .object q.render)), ("size", s.size.map .ofNat),
       ("from", s.start.map .ofNat),
       ("_source", s.source.map (fun fields => .array (fields.map .string))),
       ("sort", sort? s.sort), ("aggs", Aggregation.children? s.aggregations.entries)] := by
  rw [render, Aggregations.renderInto, Aggregation.withChildren_ofOptional (by simp)]
  -- an empty list of sorts is left out, and any other is sent
  cases hsort : s.sort <;> rfl

theorem query_alike_iff (h : s.Finite) (h' : s'.Finite) :
    Json.AlikeIfSet (s.query.map fun q => .object q.render)
      (s'.query.map fun q => .object q.render) ↔ Option.Rel Query.Alike s.query s'.query := by
  rw [Finite, quantities, List.forall_mem_append] at h h'
  cases hq : s.query with
  | none => cases s'.query <;> simp
  | some q =>
    cases hq' : s'.query with
    | none => simp
    | some q' =>
      -- the quantities of the query are among those of the search
      have hfinite : q.Finite := fun x hx => h.1 x (by simpa [hq] using hx)
      have hfinite' : q'.Finite := fun x hx => h'.1 x (by simpa [hq'] using hx)
      simpa using Query.render_alike_iff q q' hfinite hfinite'

theorem strings_alike_iff {xs ys : List String} :
    List.Forall₂ (fun v w => v.alike w) (xs.map Json.string) (ys.map Json.string) ↔ xs = ys := by
  simp [← List.forall₂_eq_eq_eq]

/-- Lists of sorts are alike exactly if they are equal. -/
theorem sort?_alike_iff {sort sort' : List (String × SortOrder)} :
    Json.AlikeIfSet (sort? sort) (sort? sort') ↔ sort = sort' := by
  have hclause : ∀ e e' : String × SortOrder,
      (sortClause e.1 e.2).alike (sortClause e'.1 e'.2) ↔ e = e' := fun e e' => by
    simp [sortClause, SortOrder.word_inj, Prod.ext_iff]
  rw [sort?, sort?, Query.clauses?_alike_iff]
  simp [hclause, ← List.forall₂_eq_eq_eq]

theorem aggregations_alike_iff (h : s.Finite) (h' : s'.Finite) :
    Json.AlikeIfSet (Aggregation.children? s.aggregations.entries)
      (Aggregation.children? s'.aggregations.entries) ↔
      Aggregation.AlikeList s.aggregations.entries s'.aggregations.entries := by
  rw [Finite, quantities, List.forall_mem_append] at h h'
  -- each registered aggregation is told apart by its object
  rw [Aggregation.children?_alike_iff]
  exact Aggregation.renderList_alike_iff (fun c _ => Aggregation.render_alike_iff c.2) h.2 h'.2

/-- **The body of a search says all that it asks for.** Two searches whose quantities are
finite have the same body, keys in the same order and equal values under them, exactly if
they are the same search. -/
theorem bodies_alike_iff (s s' : Search) (finite : s.Finite) (finite' : s'.Finite) :
    s.render.alike s'.render ↔ s.Alike s' := by
  -- the fields of the source are texts, which stand for themselves
  have hsource : Json.AlikeIfSet (s.source.map fun fields => .array (fields.map .string))
      (s'.source.map fun fields => .array (fields.map .string)) ↔ s.source = s'.source :=
    Json.alikeIfSet_map_iff fun xs ys => (Json.alike_array _ _).trans strings_alike_iff
  -- parameter by parameter, since the keys of both bodies come from one list
  rw [render_eq, render_eq, Document.ofOptional_alike_iff (by simp) (by simp)]
  simp only [List.forall₂_cons, List.forall₂_nil_left_iff, and_true,
    query_alike_iff finite finite', Json.alikeIfSet_ofNat, hsource, sort?_alike_iff,
    aggregations_alike_iff finite finite']
  constructor
  · rintro ⟨query, size, start, source, sort, aggregations⟩
    exact ⟨query, size, start, source, sort, aggregations⟩
  · rintro ⟨query, size, start, source, sort, aggregations⟩
    exact ⟨query, size, start, source, sort, aggregations⟩

/-- Daily totals of what was sold in a zone, asked for with a boost. -/
def dailySales (zone : TimeZone) (boost : Quantity) : Search :=
  { empty with
    query := some (.bool [.nested "shop" (.term "shop.open" (.bool true) none)] [] []
      [.range "at" { Bounds.none with gte := some (.string "now-7d") } (some zone)] none
      (some boost))
    aggregations := ⟨[("days", .grouping (.dateHistogram ⟨"at", some "1d", some zone, none⟩)
      ⟨[("total", .metric ⟨.sum, "price"⟩)]⟩)]⟩ }

/-- Positive zero. -/
def plusZero : Quantity := .finite .zero

/-- Negative zero. -/
def minusZero : Quantity := .finite { Binary64.zero with negative := true }

/-- Another name of universal time and the other zero make no other search; another offset
does, and has another body. -/
theorem dailySales_render_alike :
    ((dailySales .utc plusZero).Finite ∧ (dailySales ⟨"GMT", 0⟩ minusZero).Finite ∧
      (dailySales .utc plusZero).render.alike (dailySales ⟨"GMT", 0⟩ minusZero).render ∧
      (dailySales .utc plusZero).Alike (dailySales ⟨"GMT", 0⟩ minusZero)) ∧
    ((dailySales (.ofOffset 3600) plusZero).Finite ∧
      ¬ (dailySales .utc plusZero).Alike (dailySales (.ofOffset 3600) plusZero) ∧
      ¬ (dailySales .utc plusZero).render.alike (dailySales (.ofOffset 3600) plusZero).render) := by
  have hutc : (dailySales .utc plusZero).Finite := by decide
  have hgmt : (dailySales ⟨"GMT", 0⟩ minusZero).Finite := by decide
  have heast : (dailySales (.ofOffset 3600) plusZero).Finite := by decide
  have hbodies :
      (dailySales .utc plusZero).render.alike (dailySales ⟨"GMT", 0⟩ minusZero).render := rfl
  have hothers :
      ¬ (dailySales .utc plusZero).render.alike (dailySales (.ofOffset 3600) plusZero).render := by
    decide
  -- the bodies would have to be alike as well
  have hother : ¬ (dailySales .utc plusZero).Alike (dailySales (.ofOffset 3600) plusZero) :=
    fun h => hothers ((bodies_alike_iff _ _ hutc heast).mpr h)
  exact ⟨⟨hutc, hgmt, hbodies, (bodies_alike_iff _ _ hutc hgmt).mp hbodies⟩,
    heast, hother, hothers⟩

end Search

end SearchIndex
