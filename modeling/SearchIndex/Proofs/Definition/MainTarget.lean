import SearchIndex.Definition.Mapping
import SearchIndex.Proofs.Definition.Tree

/-!
# Only first targets speak

A definition may have many targets, and so may every definition inside it, but a field is
only ever resolved with the first target of the definition that directly holds it.
`Definition.mainOnly` leaves all other targets out, at every depth, and
`Definition.resolve?_mainOnly` says that no field notices.
-/

namespace SearchIndex

/-- The outcome of resolving the field at a path with the first target of the definition
that directly holds it, if the path leads to a field. -/
def Definition.resolve? (d : Definition) (path : String) : Option (Except Error Document) :=
  (d.find? path).bind (fun f =>
    (d.within? (Path.segments path).dropLast).map (fun owner => f.mapping owner.mainIndexable?))

/-- A path that finds a field resolves it with the first target of its owner. -/
theorem Definition.resolve?_of_find? {d owner : Definition} {f : Field} {path : String}
    (hf : d.find? path = some f)
    (howner : d.within? (Path.segments path).dropLast = some owner) :
    d.resolve? path = some (f.mapping owner.mainIndexable?) := by
  rw [resolve?, hf, Option.bind_some, howner, Option.map_some]

mutual

/-- A field whose definition keeps its first targets only. -/
def Field.mainOnly : Field → Field
  | ⟨name, options, inference, none⟩ => ⟨name, options, inference, none⟩
  | ⟨name, options, inference, some inner⟩ => ⟨name, options, inference, some inner.mainOnly⟩

/-- The definition with no targets but the first, at every depth. -/
def Definition.mainOnly : Definition → Definition
  | ⟨targets, mode, fields, options⟩ =>
    ⟨targets.take 1, mode, Field.mainOnlyOf fields, options⟩

/-- Fields whose definitions keep their first targets only. -/
def Field.mainOnlyOf : List Field → List Field
  | [] => []
  | f :: rest => f.mainOnly :: Field.mainOnlyOf rest

end

/-- The fields of a list are reduced one by one. -/
theorem Field.mainOnlyOf_eq_map (fields : List Field) :
    Field.mainOnlyOf fields = fields.map Field.mainOnly := by
  induction fields with
  | nil => rfl
  | cons f rest ih => rw [Field.mainOnlyOf, ih, List.map_cons]

/-- A field keeps all but what is inside it. -/
theorem Field.mainOnly_eq (f : Field) :
    f.mainOnly = ⟨f.name, f.options, f.inference, f.nested.map Definition.mainOnly⟩ := by
  obtain ⟨name, options, inference, nested⟩ := f
  cases nested <;> rfl

/-- A definition keeps its first target and the names of its fields. -/
theorem Definition.mainOnly_eq (d : Definition) :
    d.mainOnly = ⟨d.targets.take 1, d.mode, d.fields.map Field.mainOnly, d.options⟩ := by
  obtain ⟨targets, mode, fields, options⟩ := d
  rw [← Field.mainOnlyOf_eq_map]
  rfl

namespace Field

variable (f : Field)

@[simp] theorem name_mainOnly : f.mainOnly.name = f.name := by rw [mainOnly_eq]

@[simp] theorem nested_mainOnly : f.mainOnly.nested = f.nested.map Definition.mainOnly := by
  rw [mainOnly_eq]

/-- A field says the same of itself, since it does not look inside. -/
theorem ownMapping_mainOnly (main : Option Indexable) :
    f.mainOnly.ownMapping main = f.ownMapping main := by
  obtain ⟨name, options, inference, nested⟩ := f
  cases nested <;> rfl

end Field

namespace Definition

@[simp] theorem fields_mainOnly (d : Definition) :
    d.mainOnly.fields = d.fields.map Field.mainOnly := by rw [mainOnly_eq]

@[simp] theorem mainIndexable?_mainOnly (d : Definition) :
    d.mainOnly.mainIndexable? = d.mainIndexable? := by
  rw [mainOnly_eq, mainIndexable?, mainIndexable?]
  cases d.targets <;> rfl

/-! ### Looking up -/

theorem field?_mainOnly (d : Definition) (name : String) :
    d.mainOnly.field? name = (d.field? name).map Field.mainOnly := by
  simp only [field?, fields_mainOnly, List.find?_map, Function.comp_def, Field.name_mainOnly]

/-- A way down leads to the same definition, reduced. -/
theorem within?_mainOnly (d : Definition) (outer : List String) :
    d.mainOnly.within? outer = (d.within? outer).map mainOnly := by
  induction outer generalizing d with
  | nil => rfl
  | cons name rest ih =>
    -- each step of the way finds its field by name
    rw [within?, within?, field?_mainOnly]
    cases d.field? name with
    | none => rfl
    | some f =>
      simp only [Option.map_some, Option.bind_some, Field.nested_mainOnly]
      cases f.nested with
      | none => rfl
      | some inner => exact ih inner

/-- A path finds the same field, reduced. -/
theorem find?_mainOnly (d : Definition) (path : String) :
    d.mainOnly.find? path = (d.find? path).map Field.mainOnly := by
  -- a path is a way down and a name at the end
  rw [find?_eq, find?_eq, within?_mainOnly]
  cases d.within? (Path.segments path).dropLast with
  | none => rfl
  | some owner => exact field?_mainOnly owner _

/-! ### Resolving -/

/-- A field has the same fragment, if the definition inside it has the same properties. -/
theorem mapping_mainOnly_of {f : Field}
    (h : ∀ inner, f.nested = some inner → inner.mainOnly.properties = inner.properties)
    (main : Option Indexable) : f.mainOnly.mapping main = f.mapping main := by
  cases hn : f.nested with
  | none =>
    have hn' : f.mainOnly.nested = none := by simp [hn]
    rw [Field.mapping_of_plain hn, Field.mapping_of_plain hn', Field.ownMapping_mainOnly]
  | some inner =>
    have hn' : f.mainOnly.nested = some inner.mainOnly := by simp [hn]
    rw [Field.mapping_of_nested hn, Field.mapping_of_nested hn', h inner hn,
      Field.ownMapping_mainOnly]

/-- Fields with the same fragments have the same properties. -/
theorem propertiesOf_mainOnly {main : Option Indexable} {fields : List Field}
    (h : ∀ f ∈ fields, f.mainOnly.mapping main = f.mapping main) :
    Field.propertiesOf main (fields.map Field.mainOnly) = Field.propertiesOf main fields := by
  induction fields with
  | nil => rfl
  | cons f rest ih =>
    rw [List.map_cons, Field.propertiesOf_cons, Field.propertiesOf_cons,
      h f List.mem_cons_self, Field.name_mainOnly,
      ih fun g hg => h g (List.mem_cons_of_mem f hg)]

/-- **The properties do not depend on targets behind the first**, at any depth. -/
theorem properties_mainOnly (d : Definition) : d.mainOnly.properties = d.properties := by
  -- the fields of `d` ask the same target, and those inside are alike by induction
  induction d using Definition.induction with
  | step d ih =>
    rw [properties_eq, properties_eq, mainIndexable?_mainOnly, fields_mainOnly,
      propertiesOf_mainOnly fun f hf => mapping_mainOnly_of (ih f hf) _]

/-- The fragment of a field does not depend on them either, whatever target it asks. -/
theorem mapping_mainOnly (f : Field) (main : Option Indexable) :
    f.mainOnly.mapping main = f.mapping main :=
  mapping_mainOnly_of (fun inner _ => properties_mainOnly inner) main

/-- **Leaving out all targets but the first changes nothing** for any field. -/
theorem resolve?_mainOnly (d : Definition) (path : String) :
    d.mainOnly.resolve? path = d.resolve? path := by
  -- the field and its owner are found alike, and the owner has the same first target
  rw [resolve?, resolve?, find?_mainOnly, within?_mainOnly]
  cases d.find? path with
  | none => rfl
  | some f =>
    cases d.within? (Path.segments path).dropLast with
    | none => rfl
    | some owner => simp [mapping_mainOnly]

end Definition

end SearchIndex
