import SearchIndex.Options
import SearchIndex.Target

/-!
# Definitions and their fields

A definition says which fields the documents of an index have and which targets
stand behind them. A field carries mapping options, and possibly a definition of
its own, whose fields lie inside it; fields and definitions thus form one tree.

A definition lists its fields in the order in which their names were first
registered, and no name twice. A field inside another is addressed by a dotted
path (`Definition.find?`), and `Definition.expandedNames` lists all such paths in
preorder.
-/

namespace SearchIndex

mutual

/-- A named field: its mapping options, whether options may be inferred from a
target, and the definition of the fields inside it, if there are any. -/
structure Field where
  name : String
  options : Document
  inference : Bool
  nested : Option Definition

/-- The targets behind an index with the mode they share, the fields of its
documents, and custom options. -/
structure Definition where
  targets : List Target
  mode : Option Mode
  fields : List Field
  options : Options

end

namespace Field

/-- A field with a type and no other option. -/
def typed (name type : String) : Field :=
  ⟨name, Table.empty.insert "type" (.string type), false, none⟩

/-- A field whose options are inferred. -/
def inferred (name : String) : Field := ⟨name, .empty, true, none⟩

/-- The type that the options declare; only a text counts. -/
def declaredType? (f : Field) : Option String := (f.options.get? "type").bind Json.string?

/-- Whether other fields lie inside the field. -/
def isCompound (f : Field) : Bool := f.nested.isSome

/-- The fields inside the field, if it is compound. -/
def inner? (f : Field) : Option (List Field) := f.nested.map Definition.fields

end Field

namespace Definition

/-- A definition without targets, fields and options. -/
def empty : Definition := ⟨[], none, [], .empty⟩

instance : Inhabited Definition := ⟨empty⟩

/-- The names of the fields, in order of first registration. -/
def names (d : Definition) : List String := d.fields.map Field.name

/-- The field of a name; a name is one segment, even if it holds a dot. -/
def field? (d : Definition) (name : String) : Option Field :=
  d.fields.find? (fun f => f.name == name)

/-- Whether a name is registered. -/
def hasField (d : Definition) (name : String) : Bool := (d.field? name).isSome

/-- The field at the end of a list of segments, each looked up inside the one
before. -/
def findSegments? : Definition → List String → Option Field
  | _, [] => none
  | d, [name] => d.field? name
  | d, name :: rest =>
    (d.field? name).bind (fun f => f.nested.bind (fun inner => inner.findSegments? rest))

/-- The field at the end of a dotted path. -/
def find? (d : Definition) (path : String) : Option Field :=
  d.findSegments? (Path.segments path)

/-- The target that answers for fields without a type: the first one. -/
def mainTarget (d : Definition) : Except Error Target :=
  match d.targets with
  | t :: _ => .ok t
  | [] => .error (.configuration .withoutTargets)

/-- The index capability of the first target. -/
def mainIndexable? (d : Definition) : Option Indexable :=
  d.targets.head?.bind Target.indexable

end Definition

/-- The field at the end of a path that starts inside the field. -/
def Field.find? (f : Field) (path : String) : Option Field :=
  f.nested.bind (fun inner => inner.find? path)

/-! ### Expanded names -/

mutual

/-- The paths that a field contributes: its own name, then those of the fields
inside it behind its name. -/
def Field.expandedNames : Field → List String
  | ⟨name, _, _, none⟩ => [name]
  | ⟨name, _, _, some inner⟩ => name :: inner.expandedNames.map (Path.join name)

/-- The paths of all fields, at every depth, in preorder. -/
def Definition.expandedNames : Definition → List String
  | ⟨_, _, fields, _⟩ => Field.expandedNamesOf fields

/-- The paths that a list of fields contributes. -/
def Field.expandedNamesOf : List Field → List String
  | [] => []
  | f :: rest => f.expandedNames ++ Field.expandedNamesOf rest

end

/-- A field without fields inside contributes its own name. -/
theorem Field.expandedNames_of_plain {f : Field} (h : f.nested = none) :
    f.expandedNames = [f.name] := by
  obtain ⟨name, options, inference, nested⟩ := f
  subst h
  rfl

/-- A compound field contributes its own name and those inside it, behind its name. -/
theorem Field.expandedNames_of_nested {f : Field} {inner : Definition}
    (h : f.nested = some inner) :
    f.expandedNames = f.name :: inner.expandedNames.map (Path.join f.name) := by
  obtain ⟨name, options, inference, nested⟩ := f
  subst h
  rfl

theorem Field.expandedNamesOf_eq_flatMap (fields : List Field) :
    Field.expandedNamesOf fields = fields.flatMap Field.expandedNames := by
  induction fields with
  | nil => rfl
  | cons f rest ih => rw [Field.expandedNamesOf, ih, List.flatMap_cons]

theorem Definition.expandedNames_eq_flatMap (d : Definition) :
    d.expandedNames = d.fields.flatMap Field.expandedNames := by
  obtain ⟨targets, mode, fields, options⟩ := d
  exact Field.expandedNamesOf_eq_flatMap fields

/-! ### Equality of fields -/

mutual

/-- Equality of fields: the same name, equal options, the same inference flag, and
equal fields inside in the same order. What else the inner definitions hold does
not matter. -/
def Field.same : Field → Field → Bool
  | ⟨name, options, inference, none⟩, g =>
    name == g.name && options.same g.options && inference == g.inference && g.inner?.isNone
  | ⟨name, options, inference, some inner⟩, g =>
    name == g.name && options.same g.options && inference == g.inference &&
      (match g.inner? with
        | some fields => inner.sameFields fields
        | none => false)

/-- Whether the fields of a definition equal those of a list, place by place. -/
def Definition.sameFields : Definition → List Field → Bool
  | ⟨_, _, fields, _⟩, others => Field.sameList fields others

/-- Equality of lists of fields, place by place. -/
def Field.sameList : List Field → List Field → Bool
  | [], [] => true
  | f :: fs, g :: gs => f.same g && Field.sameList fs gs
  | _, _ => false

end

end SearchIndex
