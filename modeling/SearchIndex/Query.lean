import SearchIndex.TimeZone

/-!
# Queries

What a search, or a filter aggregation, asks for. A query is only ever written out:
`Query.render` gives the object of the request, in which a parameter that is not set
has no member at all.
-/

namespace SearchIndex

/-- An object whose unset members are left out. -/
def Document.ofOptional (members : List (String × Option Json)) : Document :=
  ⟨members.filterMap (fun m => m.2.map (fun value => (m.1, value)))⟩

/-- Whether a text must contain all words of a match, or one of them. -/
inductive Operator where
  | all
  | any
deriving DecidableEq

/-- The word for an operator. -/
def Operator.word : Operator → String
  | .all => "and"
  | .any => "or"

/-- The bounds of a range query. They are values of any kind, so that dates and date
arithmetic pass through. -/
structure Bounds where
  gte : Option Json
  gt : Option Json
  lte : Option Json
  lt : Option Json

/-- No bounds. -/
def Bounds.none : Bounds := ⟨.none, .none, .none, .none⟩

/-- A query. -/
inductive Query where
  /-- Every document. -/
  | matchAll (boost : Option Quantity)
  /-- One exact value. -/
  | term (field : String) (value : Json) (boost : Option Quantity)
  /-- Any of several exact values. -/
  | terms (field : String) (values : List Json)
  /-- Analyzed text. -/
  | text (field query : String) (operator : Option Operator)
  /-- Values between bounds. -/
  | range (field : String) (bounds : Bounds) (zone : Option TimeZone)
  /-- A query on the documents inside a field. -/
  | nested (path : String) (query : Query)
  /-- A combination of clauses. -/
  | bool (must should mustNot filter : List Query) (minimumShouldMatch : Option Nat)
      (boost : Option Quantity)

namespace Query

/-- An object with one member. -/
def wrap (key : String) (value : Json) : Document := ⟨[(key, value)]⟩

/-- The parameters of a query on one field. -/
def onField (type field : String) (parameters : Document) : Document :=
  wrap type (.object (wrap field (.object parameters)))

/-- A list of clauses as a member of the query, if there are any. -/
def clauses? : List Json → Option Json
  | [] => none
  | clauses => some (.array clauses)

mutual

/-- The object of the request. -/
def render : Query → Document
  | matchAll boost =>
    wrap "match_all" (.object (Document.ofOptional [("boost", boost.map .ofQuantity)]))
  | term field value boost =>
    onField "term" field (Document.ofOptional
      [("value", some value), ("boost", boost.map .ofQuantity)])
  | terms field values => wrap "terms" (.object (wrap field (.array values)))
  | text field query operator =>
    onField "match" field (Document.ofOptional
      [("query", some (.string query)), ("operator", operator.map (fun o => .string o.word))])
  | range field bounds zone =>
    onField "range" field (Document.ofOptional
      [("gte", bounds.gte), ("gt", bounds.gt), ("lte", bounds.lte), ("lt", bounds.lt),
       ("time_zone", zone.map (fun z => .string z.offsetText))])
  | nested path query =>
    wrap "nested" (.object ⟨[("path", .string path), ("query", .object query.render)]⟩)
  | bool must should mustNot filter minimumShouldMatch boost =>
    wrap "bool" (.object (Document.ofOptional
      [("must", clauses? (renderList must)), ("should", clauses? (renderList should)),
       ("must_not", clauses? (renderList mustNot)), ("filter", clauses? (renderList filter)),
       ("minimum_should_match", minimumShouldMatch.map .ofNat),
       ("boost", boost.map .ofQuantity)]))

/-- The objects of a list of clauses. -/
def renderList : List Query → List Json
  | [] => []
  | q :: rest => .object q.render :: renderList rest

end

end Query

end SearchIndex
