import SearchIndex.Definition

/-!
# Drafts of definitions

A draft is a definition that is still being put together: targets may be assigned,
fields registered and custom options changed, until `Draft.freeze` hands out what
has been collected. Everything that can be read from a definition can be read from
the contents of a draft as well.

Registering a field under a name that is taken replaces the whole field and keeps
its place.
-/

namespace SearchIndex

/-- A definition under construction. -/
structure Draft where
  contents : Definition

namespace Draft

/-- Nothing collected yet. -/
def empty : Draft := ⟨.empty⟩

instance : Inhabited Draft := ⟨empty⟩

/-- Assigns the targets, all at once. They must be able to back a definition
together; otherwise the draft has no successor and keeps the targets it has. -/
def setTargets (d : Draft) (targets : List Target) : Except Error Draft :=
  (Target.commonMode targets).map (fun mode =>
    ⟨{ d.contents with targets := targets, mode := some mode }⟩)

/-- The fields after registering one: in the place of its name if that is taken, at
the end otherwise. -/
def registerIn (f : Field) : List Field → List Field
  | [] => [f]
  | g :: rest => if g.name = f.name then f :: rest else g :: registerIn f rest

/-- Registers a field. -/
def register (d : Draft) (f : Field) : Draft :=
  ⟨{ d.contents with fields := registerIn f d.contents.fields }⟩

/-- Registers fields one after the other. -/
def registerAll (d : Draft) (fields : List Field) : Draft := fields.foldl register d

/-- Applies a change to the custom options. -/
def changeOptions (d : Draft) (change : Options → Options) : Draft :=
  ⟨{ d.contents with options := change d.contents.options }⟩

/-- Sets custom options one after the other. -/
def setOptions (d : Draft) (settings : List (String × Json)) : Draft :=
  d.changeOptions (fun o => o.insertAll settings)

/-- The finished definition. -/
def freeze (d : Draft) : Definition := d.contents

@[simp] theorem fields_register (d : Draft) (f : Field) :
    (d.register f).contents.fields = registerIn f d.contents.fields := rfl

@[simp] theorem targets_register (d : Draft) (f : Field) :
    (d.register f).contents.targets = d.contents.targets := rfl

/-- A name that is taken keeps its place, and a new one goes to the end. -/
theorem names_registerIn (f : Field) (fields : List Field) :
    (registerIn f fields).map Field.name =
      if f.name ∈ fields.map Field.name then fields.map Field.name
      else fields.map Field.name ++ [f.name] := by
  induction fields with
  | nil => simp [registerIn]
  | cons g rest ih =>
    by_cases h : g.name = f.name
    · simp [registerIn, h]
    · have h' : ¬ f.name = g.name := fun e => h e.symm
      simp only [registerIn, h, if_false, List.map_cons, ih, List.mem_cons, h', false_or]
      split <;> simp

end Draft

end SearchIndex
