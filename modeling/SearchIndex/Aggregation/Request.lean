import SearchIndex.Aggregation

/-!
# Aggregations in a request

An aggregation is sent as its parameters under its word, followed by its children
under `aggs` if it has any.
-/

namespace SearchIndex

/-- A range as the engine reads it. -/
def RangeEntry.render (e : RangeEntry) : Json :=
  .object (Document.ofOptional
    [("key", e.key.map .string), ("from", e.lower.map .ofQuantity),
     ("to", e.upper.map .ofQuantity)])

/-- The parameters of a grouping. -/
def Grouping.parameters : Grouping → Document
  | .dateHistogram g => Document.ofOptional
      [("field", some (.string g.field)), ("interval", g.interval.map .string),
       ("time_zone", g.zone.map (fun z => .string z.offsetText)),
       ("min_doc_count", g.minDocCount.map .ofNat)]
  | .histogram g => Document.ofOptional
      [("field", some (.string g.field)), ("interval", some (.ofQuantity g.interval)),
       ("min_doc_count", g.minDocCount.map .ofNat)]
  | .terms g => Document.ofOptional
      [("field", some (.string g.field)), ("size", g.size.map .ofNat),
       ("min_doc_count", g.minDocCount.map .ofNat)]
  | .ranges g =>
    ⟨[("field", .string g.field), ("ranges", .array (g.entries.map RangeEntry.render))]⟩

/-- Adds rendered children to a document, under `aggs`, if there are any. -/
def Document.withChildren (d : Document) (children : List (String × Json)) : Document :=
  if children.isEmpty then d else d.insert "aggs" (.object ⟨children⟩)

mutual

/-- The object of the request. -/
def Aggregation.render : Aggregation → Document
  | .grouping g ⟨children⟩ =>
    Document.withChildren ⟨[(g.word, .object g.parameters)]⟩ (Aggregation.renderList children)
  | .filter query ⟨children⟩ =>
    Document.withChildren ⟨[("filter", .object query.render)]⟩ (Aggregation.renderList children)
  | .metric m => ⟨[(m.kind.word, .object ⟨[("field", .string m.field)]⟩)]⟩

/-- The objects of named aggregations under their names. -/
def Aggregation.renderList : List (String × Aggregation) → List (String × Json)
  | [] => []
  | (name, a) :: rest => (name, .object a.render) :: Aggregation.renderList rest

end

namespace Aggregations

/-- The objects of the aggregations under their names. -/
def render (as : Aggregations) : Document := ⟨Aggregation.renderList as.entries⟩

/-- Adds the aggregations to a document, under `aggs`, if there are any. -/
def renderInto (as : Aggregations) (d : Document) : Document :=
  d.withChildren (Aggregation.renderList as.entries)

end Aggregations

end SearchIndex
