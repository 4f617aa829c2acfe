import SearchIndex.Error
import SearchIndex.Text.Path

/-!
# Targets

A target is a kind of stored object that a definition describes. Only an
*indexable* target may back a definition: it says how its documents take part in
the index, and it answers for fields that declare no type of their own.

The capability is open: any function from field names to options may serve as
inference. Two constructions are given here. `Target.ofTable` answers from a table,
and `Target.within` looks at another target from inside a nested field, asking it
for dotted paths. `Target.commonMode` is the check that a list of targets may back
one definition.
-/

namespace SearchIndex

/-- What an indexable target can do. -/
structure Indexable where
  mode : Mode
  /-- The mapping options of a field that declares no type. -/
  infer : String → Except Error Document

/-- A kind of stored object, which may or may not be indexable. -/
structure Target where
  name : String
  indexable : Option Indexable

namespace Indexable

/-- The inference of a target that has none: it fails for every field. -/
def noInference (field : String) : Except Error Document :=
  .error (.mapping field .notSupported)

/-- An indexable target without inference. -/
def minimal (mode : Mode) : Indexable := ⟨mode, noInference⟩

/-- The options that a table of field options gives for a field. -/
def lookup (target : String) (fields : Document) (field : String) : Except Error Document :=
  match fields.get? field with
  | some (.object options) => .ok options
  | some other => .error (.mapping field (.notAnObject target other))
  | none => .error (.mapping field (.noOptions target))

/-- A target seen from inside the field `scope`: a field is looked up under its
path. A target that is not indexable answers no question. -/
def within (inner : Target) (scope : String) : Indexable :=
  match inner.indexable with
  | some i => ⟨i.mode, fun field => i.infer (Path.join scope field)⟩
  | none => ⟨.index, fun field => .error (.mapping field (.notIndexable inner.name))⟩

end Indexable

namespace Target

/-- A target that is not indexable. -/
def plain (name : String) : Target := ⟨name, none⟩

/-- An indexable target that answers from a table of field options. -/
def ofTable (name : String) (mode : Mode) (fields : Document) : Target :=
  ⟨name, some ⟨mode, Indexable.lookup name fields⟩⟩

/-- A target seen from inside the field `scope`; it is indexable if the target is. -/
def within (inner : Target) (scope : String) : Target :=
  ⟨inner.name, inner.indexable.map (fun _ => Indexable.within inner scope)⟩

@[simp] theorem name_within (inner : Target) (scope : String) :
    (inner.within scope).name = inner.name := rfl

/-- Checks the targets behind the first one: each must be indexable and have the
first one's mode. -/
def checkRest (first : String) (mode : Mode) : List Target → Except Error Mode
  | [] => .ok mode
  | t :: rest =>
    match t.indexable with
    | none => .error (.configuration (.notIndexable t.name))
    | some i =>
      if i.mode = mode then checkRest first mode rest
      else .error (.configuration (.mixedModes first mode t.name i.mode))

/-- The mode that the targets share. The list must not be empty, every member must
be indexable, and all must have one mode; the first member at fault is reported. -/
def commonMode : List Target → Except Error Mode
  | [] => .error (.configuration .noTargets)
  | t :: rest =>
    match t.indexable with
    | none => .error (.configuration (.notIndexable t.name))
    | some i => checkRest t.name i.mode rest

end Target

end SearchIndex
