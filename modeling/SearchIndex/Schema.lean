import SearchIndex.Definition.Draft
import SearchIndex.Schema.Declaration

/-!
# Schemas

A schema is a definition under a name, built from a declaration. The targets come first
and must be able to back a definition; then each field is built in preorder, and its
name must be a single segment of a path. The definition inside a compound field looks at
the same targets from inside that field.

A field that does not say whether its options may be inferred follows the default it is
built under.
-/

namespace SearchIndex

/-- A named definition. -/
structure Schema where
  name : String
  definition : Definition

/-- The target that a declaration describes. -/
def TargetDeclaration.target (t : TargetDeclaration) : Target :=
  .ofTable t.name t.mode t.fields

namespace FieldDeclaration

/-- Whether a text can name a field: it is a segment of a path and not empty. -/
def isName (name : String) : Bool := !name.isEmpty && !Path.hasDot name

mutual

/-- Builds a field that lies inside a definition with the given targets. -/
def build (infers : Bool) (targets : List Target) : FieldDeclaration → Except Error Field
  | ⟨name, inference, inner, options⟩ =>
    if isName name then
      match inner with
      | none => .ok ⟨name, options, inference.getD infers, none⟩
      | some fields =>
        let inside := targets.map (fun t => t.within name)
        (Draft.empty.setTargets inside).bind (fun draft =>
          (buildAll infers inside fields).map (fun built =>
            ⟨name, options, inference.getD infers, some (draft.registerAll built).freeze⟩))
    else .error (.configuration (.fieldName name))

/-- Builds fields one after the other. -/
def buildAll (infers : Bool) (targets : List Target) :
    List FieldDeclaration → Except Error (List Field)
  | [] => .ok []
  | f :: rest =>
    (f.build infers targets).bind (fun built =>
      (buildAll infers targets rest).map (fun others => built :: others))

end

end FieldDeclaration

/-- Builds the definition that a declaration describes. -/
def SchemaDeclaration.build (infers : Bool) (s : SchemaDeclaration) :
    Except Error Definition :=
  let targets := s.targets.map TargetDeclaration.target
  (Draft.empty.setTargets targets).bind (fun draft =>
    (FieldDeclaration.buildAll infers targets s.fields).map (fun fields =>
      ((draft.setOptions s.options.entries).registerAll fields).freeze))

namespace Schema

/-- The schema that a declaration describes. -/
def ofDeclaration (infers : Bool) (s : SchemaDeclaration) : Except Error Schema :=
  (s.build infers).map (fun d => ⟨s.name, d⟩)

/-- How schemas are loaded. -/
structure Loader where
  /-- Whether fields that do not say so infer their options. -/
  infers : Bool
  /-- What is reported of a text that is not a schema, in the words of the reader of YAML. -/
  report : String → String

/-- The schema that the text of a file describes. -/
def read (loader : Loader) (text : String) : Except Error Schema :=
  match SchemaDeclaration.read? text with
  | some s => ofDeclaration loader.infers s
  | none => .error (.yaml (loader.report text))

end Schema

end SearchIndex
