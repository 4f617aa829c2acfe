import SearchIndex.Table
import SearchIndex.Yaml.Token

/-!
# YAML nodes

The nodes of a YAML document are scalars, sequences and mappings, and aliases that stand
for another node. An anchor gives the node that follows it a number, which is how many
different names anchors have had before, and this becomes the number of its own name. A
name that is given again therefore takes the number that the next new name will take too.
An alias has the number that its name has where the alias stands.

`Node.ofTokens?` reads the node at the start of a list of tokens.
-/

namespace SearchIndex.Yaml

/-- A node of a document as it is written. The entries of a mapping may repeat a key. -/
inductive Node where
  | scalar (text : String) (plain : Bool)
  | sequence (items : List Node)
  | mapping (entries : List (Node × Node))
  | alias (number : Nat)

/-- The anchors of a document so far: the numbers of their names, and the numbered nodes,
the last one to begin first. -/
structure Anchors where
  numbers : Table Nat
  nodes : List (Nat × Node)

namespace Node

/-- The node that stands where nothing is written. -/
def absent : Node := .scalar "" true

/-- A result of reading: what was read, the anchors, and the tokens behind it. -/
abbrev Step (α : Type) := Option (α × Anchors × List Token)

/-- Reads a node behind an anchor with a name. The nodes that `read` numbers begin behind
this one. -/
def anchored (name : String) (read : Anchors → List Token → Step Node) (anchors : Anchors)
    (tokens : List Token) : Step Node :=
  let number := anchors.numbers.size
  (read ⟨anchors.numbers.insert name number, []⟩ tokens).map (fun (node, inner, rest) =>
    (node, ⟨inner.numbers, inner.nodes ++ (number, node) :: anchors.nodes⟩, rest))

/-- Whether nothing is written where a node of a block collection may stand. -/
def endsEntry : List Token → Bool
  | .key :: _ => true
  | .value :: _ => true
  | .blockEnd :: _ => true
  | _ => false

/-- Whether nothing is written where an item of a block sequence may stand. -/
def endsItem : List Token → Bool
  | .blockEntry :: _ => true
  | .blockEnd :: _ => true
  | _ => false

/-- Whether nothing is written where a node of a flow collection may stand. -/
def endsFlow (closing : Token) : List Token → Bool
  | .flowEntry :: _ => true
  | t :: _ => t == closing
  | [] => false

mutual

/-- A node. `block` allows block collections, `indentless` a sequence whose dashes stand
at the indentation of the mapping around it. -/
def node? (block indentless : Bool) : Nat → Anchors → List Token → Step Node
  | 0, _, _ => none
  | fuel + 1, anchors, tokens =>
    match tokens with
    | .alias name :: rest =>
      (anchors.numbers.get? name).map (fun number => (.alias number, anchors, rest))
    | .anchor name :: rest =>
      anchored name (content? block indentless true fuel) anchors rest
    | _ => content? block indentless false fuel anchors tokens

/-- A node behind its anchor. Behind an anchor nothing need be written. -/
def content? (block indentless named : Bool) : Nat → Anchors → List Token → Step Node
  | 0, _, _ => none
  | fuel + 1, anchors, tokens =>
    match tokens with
    | .scalar text plain :: rest => some (.scalar text plain, anchors, rest)
    | .flowSequenceStart :: rest => flowItems? true fuel [] anchors rest
    | .flowMappingStart :: rest => flowEntries? true fuel [] anchors rest
    | .blockEntry :: _ =>
      if indentless then items? true fuel [] anchors tokens
      else if named then some (absent, anchors, tokens) else none
    | .blockSequenceStart :: rest =>
      if block then items? false fuel [] anchors rest
      else if named then some (absent, anchors, tokens) else none
    | .blockMappingStart :: rest =>
      if block then entries? fuel [] anchors rest
      else if named then some (absent, anchors, tokens) else none
    | _ => if named then some (absent, anchors, tokens) else none

/-- The items of a block sequence. An indentless one ends without a token of its own. -/
def items? (indentless : Bool) : Nat → List Node → Anchors → List Token → Step Node
  | 0, _, _, _ => none
  | fuel + 1, taken, anchors, tokens =>
    match tokens with
    | .blockEntry :: rest =>
      if endsItem rest || (indentless && endsEntry rest) then
        items? indentless fuel (absent :: taken) anchors rest
      else
        (node? true false fuel anchors rest).bind (fun (n, anchors, rest) =>
          items? indentless fuel (n :: taken) anchors rest)
    | .blockEnd :: rest =>
      some (.sequence taken.reverse, anchors, if indentless then tokens else rest)
    | _ => if indentless then some (.sequence taken.reverse, anchors, tokens) else none

/-- The entries of a block mapping. -/
def entries? : Nat → List (Node × Node) → Anchors → List Token → Step Node
  | 0, _, _, _ => none
  | fuel + 1, taken, anchors, tokens =>
    match tokens with
    | .key :: rest =>
      let key := if endsEntry rest then some (absent, anchors, rest)
        else node? true true fuel anchors rest
      key.bind (fun (k, anchors, rest) =>
        (entryValue? fuel anchors rest).bind (fun (v, anchors, rest) =>
          entries? fuel ((k, v) :: taken) anchors rest))
    | .value :: _ => none
    | .blockEnd :: rest => some (.mapping taken.reverse, anchors, rest)
    | _ => none

/-- The value of an entry of a block mapping. -/
def entryValue? : Nat → Anchors → List Token → Step Node
  | 0, _, _ => none
  | fuel + 1, anchors, tokens =>
    match tokens with
    | .value :: rest =>
      if endsEntry rest then some (absent, anchors, rest)
      else node? true true fuel anchors rest
    | _ => some (absent, anchors, tokens)

/-- The items of a flow sequence. An item with a key is a mapping with one entry. Where no
key is written behind its mark, the token that stands there is passed over. -/
def flowItems? (first : Bool) : Nat → List Node → Anchors → List Token → Step Node
  | 0, _, _, _ => none
  | fuel + 1, taken, anchors, tokens =>
    let afterComma : Option (List Token) :=
      match tokens with
      | .flowEntry :: rest => if first then some tokens else some rest
      | .flowSequenceEnd :: _ => some tokens
      | _ => if first then some tokens else none
    match afterComma with
    | some (.flowSequenceEnd :: rest) => some (.sequence taken.reverse, anchors, rest)
    | some (.key :: rest) =>
      let key := if endsFlow .flowSequenceEnd rest || rest.head? == some .value then
          some (absent, anchors, rest.drop 1)
        else node? false false fuel anchors rest
      key.bind (fun (k, anchors, rest) =>
        (flowValue? .flowSequenceEnd fuel anchors rest).bind (fun (v, anchors, rest) =>
          flowItems? false fuel (.mapping [(k, v)] :: taken) anchors rest))
    | some rest =>
      (node? false false fuel anchors rest).bind (fun (n, anchors, rest) =>
        flowItems? false fuel (n :: taken) anchors rest)
    | none => none

/-- The entries of a flow mapping. An entry without a colon has no value. -/
def flowEntries? (first : Bool) : Nat → List (Node × Node) → Anchors → List Token → Step Node
  | 0, _, _, _ => none
  | fuel + 1, taken, anchors, tokens =>
    let afterComma : Option (List Token) :=
      match tokens with
      | .flowEntry :: rest => if first then some tokens else some rest
      | .flowMappingEnd :: _ => some tokens
      | _ => if first then some tokens else none
    match afterComma with
    | some (.flowMappingEnd :: rest) => some (.mapping taken.reverse, anchors, rest)
    | some (.key :: rest) =>
      let key := if endsFlow .flowMappingEnd rest || rest.head? == some .value then
          some (absent, anchors, rest)
        else node? false false fuel anchors rest
      key.bind (fun (k, anchors, rest) =>
        (flowValue? .flowMappingEnd fuel anchors rest).bind (fun (v, anchors, rest) =>
          flowEntries? false fuel ((k, v) :: taken) anchors rest))
    | some rest =>
      (node? false false fuel anchors rest).bind (fun (n, anchors, rest) =>
        flowEntries? false fuel ((n, absent) :: taken) anchors rest)
    | none => none

/-- The value behind a key in a flow collection. -/
def flowValue? (closing : Token) : Nat → Anchors → List Token → Step Node
  | 0, _, _ => none
  | fuel + 1, anchors, tokens =>
    match tokens with
    | .value :: rest =>
      if endsFlow closing rest then some (absent, anchors, rest)
      else node? false false fuel anchors rest
    | _ => some (absent, anchors, tokens)

end

/-- The node at the start of a list of tokens, the nodes in it that have a number, and the
tokens behind it. -/
def ofTokens? (tokens : List Token) : Option (Node × List (Nat × Node) × List Token) :=
  (node? true false (4 * tokens.length + 4) ⟨.empty, []⟩ tokens).map
    (fun (n, anchors, rest) => (n, anchors.nodes, rest))

/-! ### Size -/

mutual

/-- The number of parts that a node is written with: one for a scalar or an alias, and two
for a collection, which has a start and an end. -/
def size : Node → Nat
  | .scalar _ _ => 1
  | .alias _ => 1
  | .sequence items => sizeOfItems items + 2
  | .mapping entries => sizeOfEntries entries + 2

/-- The number of parts that some nodes are written with. -/
def sizeOfItems : List Node → Nat
  | [] => 0
  | n :: rest => n.size + sizeOfItems rest

/-- The number of parts that some entries are written with. -/
def sizeOfEntries : List (Node × Node) → Nat
  | [] => 0
  | (k, v) :: rest => k.size + v.size + sizeOfEntries rest

end

end Node

end SearchIndex.Yaml
