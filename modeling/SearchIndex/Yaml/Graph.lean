import SearchIndex.Yaml.Node

/-!
# YAML documents

A YAML text holds one document, which is a graph: its root is the node that is written,
and an alias leads to a numbered node. Of several nodes with one number it leads to the
last one to begin, even if that one begins behind the alias or around it. A document may
thus seem endless; only what is read of it has to end.

`Graph.read?` reads the document of a text; a text with no document or with several is
refused. What is then read from the document is a `Reading`, which counts the aliases
that it follows: a hundred for each part that the document is written with are allowed.
-/

namespace SearchIndex.Yaml

/-- A document: its root, and its numbered nodes, the last one to begin first. -/
structure Graph where
  root : Node
  nodes : List (Nat × Node)

namespace Graph

/-- The directives at the start of a list of tokens, and the tokens behind them. -/
def directives : List Token → List Directive × List Token
  | .directive d :: rest => (d :: (directives rest).1, (directives rest).2)
  | tokens => ([], tokens)

/-- Whether a document ends in front of a list of tokens. -/
def endsDocument : List Token → Bool
  | [] => true
  | t :: _ => t == .documentStart || t == .documentEnd

/-- The document whose root is at the start of a list of tokens. -/
def rooted? (tokens : List Token) : Option (Graph × List Token) :=
  (Node.ofTokens? tokens).map (fun (root, nodes, rest) => (⟨root, nodes⟩, rest))

/-- The first document of a list of tokens, and the tokens behind it. Directives must be
followed by a marker of its start, and behind such a marker nothing need be written. -/
def first? (tokens : List Token) : Option (Graph × List Token) :=
  let (ds, rest) := directives tokens
  if !Directive.areConsistent ds then none
  else match rest with
    | .documentStart :: rest =>
      if endsDocument rest then some (⟨.absent, []⟩, rest) else rooted? rest
    | _ => if ds.isEmpty then rooted? rest else none

/-- The only document of a list of tokens. Behind it there may be markers of its end. -/
def ofTokens? (tokens : List Token) : Option Graph :=
  (first? tokens).bind (fun (g, rest) =>
    if rest.all (fun t => t == .documentEnd) then some g else none)

/-- The document of a text. -/
def read? (text : String) : Option Graph := (Token.scan? text).bind ofTokens?

end Graph

/-- A reading of a document. It may fail, and it keeps the number of aliases that may still
be followed. -/
abbrev Reading (α : Type) := ReaderT Graph (StateT Nat Option) α

/-- What a reading finds in a document, if it does not fail. -/
def Graph.run? {α : Type} (g : Graph) (reading : Reading α) : Option α :=
  (reading.run g).run' (100 * g.root.size)

/-- The node itself, or the one that it is an alias of. -/
def Node.target : Node → Reading Node
  | .alias number => do
    match ← get with
    | 0 => failure
    | left + 1 =>
      set left
      (← read).nodes.lookup number
  | n => return n

end SearchIndex.Yaml
