import SearchIndex.Definition.Mapping

/-!
# Talking to the engine

A transport carries requests to the search engine and answers them. It is any monad
with an answer for every request, so that a recording or a failing transport is one
too. A definition puts its mapping through a transport with `Definition.putMapping`.
-/

namespace SearchIndex

/-- A request to the engine: what is asked, of which index, with which body. -/
inductive Request where
  | putMapping (index : String) (body : Document)
  | search (index : String) (body : Document)

/-- Carries requests to the engine. -/
structure Transport (m : Type → Type) where
  send : Request → m (Except Error Json)

/-- Sends the mapping of a definition. If the mapping cannot be resolved, nothing is
sent. -/
def Definition.putMapping {m : Type → Type} [Monad m] (d : Definition) (t : Transport m)
    (index : String) : m (Except Error Json) :=
  match d.mapping with
  | .error e => pure (.error e)
  | .ok mapping => t.send (.putMapping index mapping)

end SearchIndex
