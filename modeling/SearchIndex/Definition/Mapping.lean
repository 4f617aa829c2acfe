import SearchIndex.Definition

/-!
# Mappings

The mapping of a definition is the document `{"properties": …}` that tells the
index how each field is stored. A field's fragment starts from its own options if
they declare a type. A compound field without one counts as nested; any other field
without a type is inferred from the first target of the definition that directly
holds it, and what the field itself declares wins over what is inferred. The
fragment of a compound field ends with the properties of the fields inside it.

The first field, in preorder, whose fragment cannot be resolved decides the error
of the whole mapping (`Definition.mapping`).
-/

namespace SearchIndex

namespace Field

/-- The options that the target infers, overridden by those of the field. A failure
of the target that is not about a mapping is reported as one for this field. -/
def infer (f : Field) (main : Option Indexable) : Except Error Document :=
  match main with
  | none => .error (.mapping f.name .withoutTarget)
  | some target =>
    match target.infer f.name with
    | .ok inferred => .ok (inferred.insertAll f.options.entries)
    | .error (.mapping field fault) => .error (.mapping field fault)
    | .error other => .error (.mapping f.name (.stated other.message))

/-- The fragment of a field apart from the fields inside it. -/
def ownMapping (f : Field) (main : Option Indexable) : Except Error Document :=
  if f.declaredType?.isSome then .ok f.options
  else if f.isCompound then .ok (f.options.insert "type" (.string "nested"))
  else if f.inference then f.infer main
  else .error (.mapping f.name .inferenceDisabled)

section OwnMapping

variable {f : Field} (main : Option Indexable)

theorem ownMapping_of_declared {type : String} (ht : f.declaredType? = some type) :
    f.ownMapping main = .ok f.options := by
  simp [ownMapping, ht]

theorem ownMapping_of_compound {inner : Definition} (ht : f.declaredType? = none)
    (hn : f.nested = some inner) :
    f.ownMapping main = .ok (f.options.insert "type" (.string "nested")) := by
  simp [ownMapping, ht, isCompound, hn]

theorem ownMapping_of_plain (ht : f.declaredType? = none) (hn : f.nested = none) :
    f.ownMapping main =
      if f.inference then f.infer main else .error (.mapping f.name .inferenceDisabled) := by
  simp [ownMapping, ht, isCompound, hn]

end OwnMapping

end Field

mutual

/-- The fragment of a field in a definition whose first target is `main`. -/
def Field.mapping (main : Option Indexable) : Field → Except Error Document
  | ⟨name, options, inference, none⟩ => Field.ownMapping ⟨name, options, inference, none⟩ main
  | ⟨name, options, inference, some inner⟩ => do
    let own ← Field.ownMapping ⟨name, options, inference, some inner⟩ main
    let properties ← inner.properties
    pure (own.insert "properties" (.object properties))

/-- The fragments of the fields of a definition under their names. -/
def Definition.properties : Definition → Except Error Document
  | ⟨targets, _, fields, _⟩ =>
    (Field.propertiesOf (targets.head?.bind Target.indexable) fields).map Table.mk

/-- The fragments of a list of fields under their names. -/
def Field.propertiesOf (main : Option Indexable) :
    List Field → Except Error (List (String × Json))
  | [] => .ok []
  | f :: rest => do
    let fragment ← f.mapping main
    let others ← Field.propertiesOf main rest
    pure ((f.name, .object fragment) :: others)

end

theorem Field.mapping_of_plain {f : Field} (h : f.nested = none) (main : Option Indexable) :
    f.mapping main = f.ownMapping main := by
  obtain ⟨name, options, inference, nested⟩ := f
  subst h
  rfl

theorem Field.mapping_of_nested {f : Field} {inner : Definition} (h : f.nested = some inner)
    (main : Option Indexable) :
    f.mapping main = (f.ownMapping main).bind (fun own =>
      inner.properties.map (fun properties =>
        own.insert "properties" (.object properties))) := by
  obtain ⟨name, options, inference, nested⟩ := f
  subst h
  rfl

theorem Field.propertiesOf_cons (main : Option Indexable) (f : Field) (rest : List Field) :
    Field.propertiesOf main (f :: rest) = (f.mapping main).bind (fun fragment =>
      (Field.propertiesOf main rest).map (fun others =>
        (f.name, .object fragment) :: others)) := rfl

theorem Definition.properties_eq (d : Definition) :
    d.properties = (Field.propertiesOf d.mainIndexable? d.fields).map Table.mk := by
  obtain ⟨targets, mode, fields, options⟩ := d
  rfl

/-- The mapping document of a definition. -/
def Definition.mapping (d : Definition) : Except Error Document :=
  d.properties.map (fun properties => Table.empty.insert "properties" (.object properties))

end SearchIndex
