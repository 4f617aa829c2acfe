import SearchIndex.Aggregation.Request
import SearchIndex.Aggregation.Response
import SearchIndex.Transport

/-!
# Searches

A search asks for the hits of a query, for a page of them in some order, and for
aggregations over all of them. `Search.render` gives the body of the request and
`Search.decode` reads the response: hits first, then aggregations, so that a hit at
fault is reported before an aggregation at fault.
-/

namespace SearchIndex

/-- The direction of a sort. -/
inductive SortOrder where
  | ascending
  | descending
deriving DecidableEq

/-- The word for a direction. -/
def SortOrder.word : SortOrder → String
  | .ascending => "asc"
  | .descending => "desc"

/-- A search request. -/
structure Search where
  query : Option Query
  size : Option Nat
  start : Option Nat
  source : Option (List String)
  sort : List (String × SortOrder)
  aggregations : Aggregations

/-- A document that a search found. -/
structure Hit where
  id : String
  index : Option String
  score : Option Binary64
  source : Json

/-- A decoded response. -/
structure SearchResult where
  total : Nat
  maxScore : Option Binary64
  hits : List Hit
  aggregations : Table Decoded

namespace Search

/-- A search for everything, with nothing set. -/
def empty : Search := ⟨none, none, none, none, [], .empty⟩

instance : Inhabited Search := ⟨empty⟩

/-- Registers an aggregation over all hits. -/
def aggregate (s : Search) (name : String) (a : Aggregation) : Except Error Search :=
  (Aggregations.register s.aggregations name a).map (fun as => { s with aggregations := as })

/-- Registers aggregations one after the other. The search is handed over with every call, so the
first refused one ends it. -/
def aggregateAll (s : Search) (calls : List (String × Aggregation)) : Except Error Search :=
  calls.foldlM (fun s c => s.aggregate c.1 c.2) s

/-- A sort as the engine reads it. -/
def sortClause (field : String) (order : SortOrder) : Json :=
  .object (Query.wrap field (.object (Query.wrap "order" (.string order.word))))

/-- The body of the request. -/
def render (s : Search) : Document :=
  let sort := s.sort.map (fun e => sortClause e.1 e.2)
  s.aggregations.renderInto (Document.ofOptional
    [("query", s.query.map (fun q => .object q.render)), ("size", s.size.map .ofNat),
     ("from", s.start.map .ofNat),
     ("_source", s.source.map (fun fields => .array (fields.map .string))),
     ("sort", if sort.isEmpty then none else some (.array sort))])

/-- The number of hits that a response reports: a bare count, or the value of an
object. Anything else counts as none. -/
def total (reported : Option Json) : Nat :=
  match reported with
  | some (.object members) => ((members.get? "value").bind Json.nat?).getD 0
  | some count => count.nat?.getD 0
  | none => 0

/-- The identifier of a hit: a text, or the text of a number. -/
def hitId? : Json → Option String
  | .string id => some id
  | .number n => some (Json.numberText n)
  | _ => none

/-- A hit from its part of the response. -/
def decodeHit (raw : Json) : Except Error Hit :=
  match raw.members? with
  | none => .error (.decode .hitNotAnObject)
  | some members =>
    match (members.get? "_id").bind hitId? with
    | none => .error (.decode .hitWithoutId)
    | some id => .ok
        { id := id
          index := (members.get? "_index").bind Json.string?
          score := (members.get? "_score").bind Json.real?
          source := (members.get? "_source").getD .null }

/-- The results of the aggregations of a response, which may have none. -/
def decodeAggregations (s : Search) (formatter : Formatter) (reported : Option Json) :
    Except Error (Table Decoded) :=
  match reported with
  | none => .ok .empty
  | some (.object members) => s.aggregations.decode formatter members
  | some _ => .error (.decode .aggregationsNotAnObject)

/-- Reads a response. -/
def decode (s : Search) (formatter : Formatter) (raw : Json) : Except Error SearchResult :=
  match (raw.member? "hits").bind Json.members? with
  | none => .error (.decode .withoutHits)
  | some reported => do
    let hits ← (((reported.get? "hits").bind Json.items?).getD []).mapM decodeHit
    let aggregations ← s.decodeAggregations formatter (raw.member? "aggregations")
    pure
      { total := total (reported.get? "total")
        maxScore := (reported.get? "max_score").bind Json.real?
        hits := hits
        aggregations := aggregations }

/-- Sends the search and reads the response. -/
def execute {m : Type → Type} [Monad m] (s : Search) (t : Transport m) (index : String)
    (formatter : Formatter) : m (Except Error SearchResult) := do
  let answer ← t.send (.search index s.render)
  pure (answer.bind (s.decode formatter))

end Search

/-- A hit as a value. -/
def Hit.toJson (h : Hit) : Json :=
  .ofMembers
    [("id", .string h.id), ("index", (h.index.map .string).getD .null),
     ("score", (h.score.map (fun x => .number (.real x))).getD .null), ("source", h.source)]

/-- A decoded response as a document. -/
def SearchResult.toDocument (r : SearchResult) : Document :=
  ⟨[("total", .ofNat r.total),
    ("max_score", (r.maxScore.map (fun x => .number (.real x))).getD .null),
    ("hits", .array (r.hits.map Hit.toJson)),
    ("aggregations", .ofMembers (Decoded.toMembers r.aggregations.entries))]⟩

/-- The identifiers of the hits. -/
def SearchResult.ids (r : SearchResult) : List String := r.hits.map Hit.id

/-- The result of an aggregation. -/
def SearchResult.aggregation? (r : SearchResult) (name : String) : Option Decoded :=
  r.aggregations.get? name

end SearchIndex
