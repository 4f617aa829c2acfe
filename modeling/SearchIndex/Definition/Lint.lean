import SearchIndex.Definition

/-!
# Checking definitions

Issues that can be seen in a definition without asking its targets: no field at
all, and fields, at any depth, that neither declare a type nor may be inferred. A
compound field needs no type; its inner fields are looked at instead.
-/

namespace SearchIndex

/-- What a check may find. -/
inductive Issue where
  | withoutFields
  | untyped (path : String)
deriving DecidableEq

/-- The wording of an issue. -/
def Issue.message : Issue → String
  | .withoutFields => "definition should have at least one field"
  | .untyped path => "field '" ++ path ++ "' has no type and mapping inference is disabled"

mutual

/-- The issues of a field whose path is its name behind the text `outer`. -/
def Field.issues (outer : String) : Field → List Issue
  | ⟨name, options, inference, none⟩ =>
    let f : Field := ⟨name, options, inference, none⟩
    if f.declaredType?.isNone && !inference then [.untyped (outer ++ name)] else []
  | ⟨name, _, _, some inner⟩ => inner.fieldIssues (outer ++ name ++ ".")

/-- The issues of the fields of a definition. -/
def Definition.fieldIssues (outer : String) : Definition → List Issue
  | ⟨_, _, fields, _⟩ => Field.issuesOf outer fields

/-- The issues of a list of fields. -/
def Field.issuesOf (outer : String) : List Field → List Issue
  | [] => []
  | f :: rest => f.issues outer ++ Field.issuesOf outer rest

end

/-- All issues of a definition, in the order of its fields. -/
def Definition.lint (d : Definition) : List Issue :=
  (if d.fields.isEmpty then [.withoutFields] else []) ++ d.fieldIssues ""

end SearchIndex
