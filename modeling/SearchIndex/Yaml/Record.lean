import SearchIndex.Yaml.Value

/-!
# Reading nodes as data of a known shape

A reader expects a text, a truth value, a list, a document or a record, that is, a mapping
with known keys. Each reader is told how deep collections may still nest, and each follows
an alias that stands where it expects something else.

None of the known keys of a record may be written twice; what to do with other keys is
left to the reader. Where a list or a document is expected, nothing written is an empty
one.
-/

namespace SearchIndex.Yaml.Node

/-- The text of a scalar, however it is written. -/
def text (n : Node) : Reading String := do
  match ← n.target with
  | .scalar s _ => return s
  | _ => failure

/-- The truth value of a plain scalar. -/
def bool (n : Node) : Reading Bool := do
  match ← n.target with
  | .scalar s true => Meaning.bool? s
  | _ => failure

/-- Whether a node is the null of an optional value: a plain scalar that says so or says
nothing. -/
def isNull : Node → Bool
  | .scalar s plain => plain && (s.isEmpty || Meaning.isNull s)
  | _ => false

/-- An optional value, which is null or as `read` reads it. -/
def option {α : Type} (read : Node → Reading α) (n : Node) : Reading (Option α) := do
  let n ← n.target
  if n.isNull then return none else return some (← read n)

/-- The items of a list. -/
def items (depth : Nat) (n : Node) : Reading (List Node) := do
  match ← n.target, depth with
  | .sequence items, _ + 1 => return items
  | .scalar "" true, _ => return []
  | _, _ => failure

/-- The items of a list, each as `read` reads it. -/
def list {α : Type} (read : Nat → Node → Reading α) (depth : Nat) (n : Node) :
    Reading (List α) := do
  (← n.items depth).mapM (read (depth - 1))

/-- The members of a document, with the texts of scalars as keys. -/
def document (depth : Nat) (n : Node) : Reading Document := do
  match ← n.target, depth with
  | .mapping entries, deeper + 1 => KeyRule.anyScalar.members (toJson .anyScalar deeper) entries
  | .scalar "" true, _ => return .empty
  | _, _ => failure

/-- The entries of a record by the texts of their keys. -/
def record (depth : Nat) (n : Node) : Reading (List (String × Node)) := do
  match ← n.target, depth with
  | .mapping entries, _ + 1 => entries.mapM (fun (k, v) => return (← k.text, v))
  | _, _ => failure

/-- The value under a key of a record, if there is one; there must not be two. -/
def valueOf? (key : String) (entries : List (String × Node)) : Option (Option Node) :=
  match entries.filter (fun e => e.1 == key) with
  | [] => some none
  | [e] => some (some e.2)
  | _ => none

/-- The value under a key of a record as `read` reads it. -/
def required {α : Type} (key : String) (read : Node → Reading α)
    (entries : List (String × Node)) : Reading α := do
  match ← valueOf? key entries with
  | some n => read n
  | none => failure

/-- The value under a key of a record as `read` reads it, or a default where the key is
absent. -/
def optional {α : Type} (key : String) (default : α) (read : Node → Reading α)
    (entries : List (String × Node)) : Reading α := do
  match ← valueOf? key entries with
  | some n => read n
  | none => return default

end SearchIndex.Yaml.Node
