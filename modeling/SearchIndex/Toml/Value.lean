import SearchIndex.Number.Binary64
import SearchIndex.Table

/-!
# Values and tables of a TOML text

A TOML text is a list of statements: headers, which say into which table the entries
behind them go, and entries, whose keys may be dotted and then lead into tables inside
that one. `Value.ofStatements?` puts the statements together to one table.

Nothing may be defined twice, and how a table came to be decides what may still be added
to it. A header may define a table that earlier headers only led through, but not one
that dotted keys lead through; dotted keys may lead through a table unless a header has
defined it, and may add entries only to tables that dotted keys have made. A table in
braces is finished.
-/

namespace SearchIndex.Toml

/-- How a table came to be. -/
inductive Origin where
  /-- It is written in braces. -/
  | braces
  /-- A header defines it. -/
  | header
  /-- The headers of tables inside it lead through it. -/
  | implied
  /-- Dotted keys lead through it. -/
  | dotted
deriving DecidableEq

/-- A value of a TOML text. -/
inductive Value where
  | string (text : String)
  | integer (value : Int)
  | real (value : Quantity)
  | bool (value : Bool)
  /-- A date, a time of day or both, of which only the presence is kept. -/
  | moment
  | array (items : List Value)
  | table (origin : Origin) (members : Table Value)
  /-- Tables that a repeated header defines, the last one apart from those before it. -/
  | tables (earlier : List (Table Value)) (last : Table Value)

/-- A statement of a TOML text. Headers and entries address a key inside the table at the
end of a list of keys. -/
inductive Statement where
  | header (outer : List String) (key : String)
  | repeatedHeader (outer : List String) (key : String)
  | entry (outer : List String) (key : String) (value : Value)

namespace Value

/-- Adds an entry under a dotted key: `outer` are the keys in front of the last one. -/
def assign? (key : String) (value : Value) : List String → Table Value → Option (Table Value)
  | [], t => if t.contains key then none else some (t.insert key value)
  | k :: rest, t =>
    match t.get? k with
    | none =>
      (assign? key value rest .empty).map (fun inner => t.insert k (.table .dotted inner))
    | some (.table .dotted inner) =>
      (assign? key value rest inner).map (fun inner => t.insert k (.table .dotted inner))
    | some (.table .implied inner) =>
      if rest.isEmpty then none
      else (assign? key value rest inner).map (fun inner => t.insert k (.table .implied inner))
    | some (.tables earlier last) =>
      if rest.isEmpty then none
      else (assign? key value rest last).map (fun last => t.insert k (.tables earlier last))
    | some _ => none

/-- Changes the table that a header's keys lead to. Of repeated tables the last one is
meant. -/
def changeAt? (change : Table Value → Option (Table Value)) :
    List String → Table Value → Option (Table Value)
  | [], t => change t
  | k :: rest, t =>
    match t.get? k with
    | none => (changeAt? change rest .empty).map (fun inner => t.insert k (.table .implied inner))
    | some (.table .braces _) => none
    | some (.table origin inner) =>
      (changeAt? change rest inner).map (fun inner => t.insert k (.table origin inner))
    | some (.tables earlier last) =>
      (changeAt? change rest last).map (fun last => t.insert k (.tables earlier last))
    | some _ => none

/-- Defines the table of a header. -/
def define? (key : String) (t : Table Value) : Option (Table Value) :=
  match t.get? key with
  | none => some (t.insert key (.table .header .empty))
  | some (.table .implied members) => some (t.insert key (.table .header members))
  | some _ => none

/-- Defines one more table of a repeated header. -/
def defineNext? (key : String) (t : Table Value) : Option (Table Value) :=
  match t.get? key with
  | none => some (t.insert key (.tables [] .empty))
  | some (.tables earlier last) => some (t.insert key (.tables (earlier ++ [last]) .empty))
  | some _ => none

/-- The table that statements build on from a table, where entries go into the table at
`current`. -/
def build? (current : List String) (root : Table Value) :
    List Statement → Option (Table Value)
  | [] => some root
  | .header outer key :: rest =>
    (changeAt? (define? key) outer root).bind (fun root => build? (outer ++ [key]) root rest)
  | .repeatedHeader outer key :: rest =>
    (changeAt? (defineNext? key) outer root).bind (fun root => build? (outer ++ [key]) root rest)
  | .entry outer key value :: rest =>
    (changeAt? (assign? key value outer) current root).bind (fun root =>
      build? current root rest)

/-- The table that the statements of a text build. -/
def ofStatements? (statements : List Statement) : Option (Table Value) :=
  build? [] .empty statements

/-- The table that entries in braces build. -/
def ofEntries? (entries : List (List String × String × Value)) : Option Value :=
  (entries.foldlM (fun t (outer, key, value) => assign? key value outer t) .empty).map
    (.table .braces)

end Value

end SearchIndex.Toml
