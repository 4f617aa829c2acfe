import SearchIndex.Error
import SearchIndex.Yaml.Record

/-!
# Schema declarations

What a schema file says, before anything is built from it: the name of the schema, the
targets behind it with the options they answer for fields, the fields at every depth,
and custom options.

A declaration is read from a YAML document (`SchemaDeclaration.read?`). The file and its
targets are records, in which keys that are not known are ignored. In a field, a key
that is not known is one of the field's options.
-/

namespace SearchIndex

/-- A target and the options that it answers for fields, which may be any values. -/
structure TargetDeclaration where
  name : String
  mode : Mode
  fields : Document

/-- A field: whether its options may be inferred, if it says so, the fields inside it,
if it has such a list, and its options. -/
structure FieldDeclaration where
  name : String
  inference : Option Bool
  fields : Option (List FieldDeclaration)
  options : Document

/-- A schema file. -/
structure SchemaDeclaration where
  name : String
  targets : List TargetDeclaration
  fields : List FieldDeclaration
  options : Document

/-- The mode of a word. -/
def Mode.ofWord? (word : String) : Option Mode :=
  [Mode.index, Mode.storage].find? (fun m => m.word == word)

@[simp] theorem Mode.ofWord?_word (m : Mode) : Mode.ofWord? m.word = some m := by
  cases m <;> rfl

open Yaml (Node Reading)

/-- Reads a mode by its word. -/
def Mode.ofNode (n : Node) : Reading Mode := do
  Mode.ofWord? (← n.text)

/-- Reads a target; one that does not give its mode is an index. -/
def TargetDeclaration.ofNode (depth : Nat) (n : Node) : Reading TargetDeclaration := do
  let entries ← n.record depth
  return {
    name := ← Node.required "name" Node.text entries
    mode := ← Node.optional "mode" .index Mode.ofNode entries
    fields := ← Node.optional "fields" .empty (Node.document (depth - 1)) entries }

namespace FieldDeclaration

/-- The keys of a field that are not options. -/
def knownKeys : List String := ["name", "inference", "fields"]

/-- The options of a field: its entries under keys that are not known. The keys of
mappings inside them must be texts. -/
def optionsOf (depth : Nat) (entries : List (String × Node)) : Reading Document :=
  (entries.filter (fun e => !knownKeys.contains e.1)).foldlM
    (fun taken (key, n) => return taken.insert key (← n.toJson .textOnly depth)) .empty

/-- Reads a field. The fields inside it may be null, which is to have none. -/
def ofNode (depth : Nat) (n : Node) : Reading FieldDeclaration := do
  let entries ← n.record depth
  return {
    name := ← Node.required "name" Node.text entries
    inference := ← Node.optional "inference" none (Node.option Node.bool) entries
    fields := ← Node.optional "fields" none (Node.option (fun n => do
      match ← n.items (depth - 1), depth with
      | items, deeper + 2 => items.mapM (ofNode deeper)
      | _, _ => return [])) entries
    options := ← optionsOf (depth - 1) entries }

end FieldDeclaration

namespace SchemaDeclaration

/-- Reads a schema. -/
def ofNode (depth : Nat) (n : Node) : Reading SchemaDeclaration := do
  let entries ← n.record depth
  return {
    name := ← Node.required "name" Node.text entries
    targets := ← Node.required "targets" (Node.list TargetDeclaration.ofNode (depth - 1)) entries
    fields := ← Node.optional "fields" [] (Node.list FieldDeclaration.ofNode (depth - 1)) entries
    options := ← Node.optional "options" .empty (Node.document (depth - 1)) entries }

/-- How deep the collections of a schema file may nest. -/
def depthLimit : Nat := 128

/-- Reads the text of a schema file. -/
def read? (text : String) : Option SchemaDeclaration :=
  (Yaml.Graph.read? text).bind (fun g => g.run? (ofNode depthLimit g.root))

end SchemaDeclaration

end SearchIndex
