import SearchIndex.Proofs.Definition.MainTarget
import SearchIndex.Proofs.Definition.Paths
import SearchIndex.Proofs.Schema.Build
import SearchIndex.Proofs.Table

/-!
# Inferred fields of a schema

A field of a schema that declares no type is answered for by the first target declared,
under the whole path of the field, however deep it lies. Nobody builds that path: each
compound field puts one scope around the targets, and the scopes add up
(`Definition.ScopedBy`, `Target.indexable_foldl_within`). What comes out is
`SchemaDeclaration.inferred_resolution`.

That the tables of the other targets do not matter is a statement about two runs. Leaving
out all targets but the first commutes with building
(`SchemaDeclaration.build_keepFirst`), so two schemas that differ in the others only have
definitions that agree on their first targets, and that is all a field can notice
(`Definition.resolve?_mainOnly`).

Options that are laid over a table must have distinct keys. Declarations hold them as
lists, so this is asked for (`SchemaDeclaration.OptionsDistinct`); reading a declaration
from a text makes it so (`SchemaDeclaration.read?_optionsDistinct`), and a schema that is
read need not be asked (`Schema.inferred_resolution_of_read`).
-/

namespace SearchIndex

/-! ### Building with the first target only -/

/-- Leaving out the other targets does not matter to the place a field is registered at. -/
theorem Draft.map_registerIn_mainOnly (f : Field) (fields : List Field) :
    (registerIn f fields).map Field.mainOnly =
      registerIn f.mainOnly (fields.map Field.mainOnly) := by
  induction fields with
  | nil => rfl
  | cons g rest ih =>
    by_cases h : g.name = f.name
    · simp [registerIn, h]
    · simp [registerIn, h, ih]

/-- A definition is assembled with its first target only of fields without the others. -/
theorem Definition.mainOnly_assembled (targets : List Target) (mode : Mode)
    (options : Options) (fields : List Field) :
    (assembled targets mode options fields).mainOnly =
      assembled (targets.take 1) mode options (fields.map Field.mainOnly) := by
  -- registering one field after the other, from any fields held before
  have hfields : ∀ held : List Field,
      (fields.foldl (fun held f => Draft.registerIn f held) held).map Field.mainOnly =
        (fields.map Field.mainOnly).foldl (fun held f => Draft.registerIn f held)
          (held.map Field.mainOnly) := by
    induction fields with
    | nil => exact fun held => rfl
    | cons f rest ih =>
      intro held
      rw [List.foldl_cons, List.map_cons, List.foldl_cons, ih, Draft.map_registerIn_mainOnly]
  rw [mainOnly_eq, assembled, assembled, Draft.freeze, Draft.freeze, Draft.contents_registerAll,
    Draft.contents_registerAll, hfields]
  rfl

namespace FieldDeclaration

variable {infers : Bool}

theorem buildAll_take_one {targets : List Target} {decls : List FieldDeclaration}
    (h : ∀ g ∈ decls, g.build infers (targets.take 1) =
      (g.build infers targets).map Field.mainOnly) :
    buildAll infers (targets.take 1) decls =
      (buildAll infers targets decls).map (List.map Field.mainOnly) := by
  -- field by field, and a failure is the same in both
  induction decls with
  | nil => rfl
  | cons g rest ih =>
    rw [buildAll, buildAll, h g List.mem_cons_self,
      ih fun k hk => h k (List.mem_cons_of_mem g hk)]
    cases g.build infers targets with
    | error e => rfl
    | ok b => cases buildAll infers targets rest <;> rfl

theorem mainOnly_fieldWith (f : FieldDeclaration) (nested : Option Definition) :
    (f.fieldWith infers nested).mainOnly =
      f.fieldWith infers (nested.map Definition.mainOnly) :=
  Field.mainOnly_eq _

/-- **Building for the first target only** makes the same field, with the other targets
left out. -/
theorem build_take_one {targets : List Target} {mode : Mode}
    (accepted : Target.commonMode targets = .ok mode) (f : FieldDeclaration) :
    f.build infers (targets.take 1) = (f.build infers targets).map Field.mainOnly := by
  cases hfields : f.fields with
  | none =>
    rw [build_of_plain hfields, build_of_plain hfields]
    split <;> rfl
  | some decls =>
    rw [build_of_compound hfields, build_of_compound hfields]
    dsimp only
    -- the check for the fields inside passes for all targets and for the first alone
    have hinside := Target.commonMode_within accepted f.name
    rw [List.map_take, Target.commonMode_take_one hinside, hinside,
      buildAll_take_one fun g hg =>
        have := sizeOf_inner_lt hfields hg
        build_take_one hinside g]
    -- whether the name is good does not depend on the targets
    split
    · cases buildAll infers (targets.map fun t => t.within f.name) decls with
      | error e => rfl
      | ok built =>
        refine congrArg Except.ok ?_
        dsimp only
        rw [mainOnly_fieldWith, Option.map_some, Definition.mainOnly_assembled]
    · rfl
termination_by sizeOf f

end FieldDeclaration

namespace SchemaDeclaration

variable {infers : Bool} {s : SchemaDeclaration} {d : Definition} {p : String} {f : Field}

/-- The declaration without the targets behind the first. -/
def keepFirst (s : SchemaDeclaration) : SchemaDeclaration :=
  { s with targets := s.targets.take 1 }

/-- **Building a schema with its first target only** makes the same definition, with the other
targets left out. -/
theorem build_keepFirst {mode : Mode}
    (accepted : Target.commonMode (s.targets.map TargetDeclaration.target) = .ok mode) :
    s.keepFirst.build infers = (s.build infers).map Definition.mainOnly := by
  rw [build_eq, build_eq, keepFirst]
  dsimp only
  rw [List.map_take, Target.commonMode_take_one accepted, accepted,
    FieldDeclaration.buildAll_take_one fun g _ => FieldDeclaration.build_take_one accepted g]
  cases FieldDeclaration.buildAll infers (s.targets.map TargetDeclaration.target) s.fields with
  | error e => rfl
  | ok fields => exact congrArg Except.ok (Definition.mainOnly_assembled ..).symm

/-- Two schemas that differ in the targets behind the first only, all of them acceptable,
are both built or not, and their fields are resolved alike. -/
theorem exists_build_of_keepFirst_eq (s' : SchemaDeclaration) {mode mode' : Mode}
    (accepted : Target.commonMode (s.targets.map TargetDeclaration.target) = .ok mode)
    (accepted' : Target.commonMode (s'.targets.map TargetDeclaration.target) = .ok mode')
    (same : s'.keepFirst = s.keepFirst) (built : s.build infers = .ok d) :
    ∃ d', s'.build infers = .ok d' ∧ ∀ p, d'.resolve? p = d.resolve? p := by
  -- both schemas come to the same definition with their first target only
  have hfirst : s'.keepFirst.build infers = _ := build_keepFirst accepted'
  rw [same, build_keepFirst accepted, built] at hfirst
  obtain ⟨d', hd', hmain⟩ := Outcome.map_eq_ok_iff.mp hfirst.symm
  refine ⟨d', hd', fun p => ?_⟩
  rw [← Definition.resolve?_mainOnly d', hmain, Definition.resolve?_mainOnly]

/-! ### The answer of the first target -/

/-- No definition is backed by nothing, so a schema that is built has a first target. -/
theorem exists_first_of_build (built : s.build infers = .ok d) :
    ∃ first others, s.targets = first :: others := by
  obtain ⟨mode, fields, accepted, -, -⟩ := build_eq_ok built
  have hne : s.targets ≠ [] := by simpa using (Target.commonMode_eq_ok_iff.mp accepted).1
  exact List.exists_cons_of_ne_nil hne

/-- A path that finds a field of a schema is listed among its names. -/
theorem mem_expandedNames_of_find? (built : s.build infers = .ok d) (found : d.find? p = some f) :
    p ∈ d.expandedNames := by
  have sound := build_sound built
  rw [Definition.mem_expandedNames_iff sound.frozen.distinct sound.dotFree, found]
  rfl

/-- The definition that directly holds a field of a schema asks the first target declared
for the whole path. -/
theorem mainIndexable?_of_within? {first : TargetDeclaration} {others : List TargetDeclaration}
    (built : s.build infers = .ok d) (htargets : s.targets = first :: others)
    {outer : List String} {owner : Definition} (he : d.within? outer = some owner) :
    owner.mainIndexable? = some ⟨first.mode, fun field =>
      Indexable.lookup first.name first.fields (Path.ofSegments (outer ++ [field]))⟩ := by
  have hindexable : first.target.indexable =
    some ⟨first.mode, Indexable.lookup first.name first.fields⟩ := rfl
  -- the scopes on the way add up to the names on the way
  rw [Definition.mainIndexable?, (build_sound built).scopes outer owner he, htargets]
  show (outer.foldl Target.within first.target).indexable = _
  rw [Target.indexable_foldl_within, hindexable]
  rfl

/-- A field without a type, and without fields inside, comes down to the entry of its path
in the table of the first target. -/
theorem resolve?_eq_infer {first : TargetDeclaration} {others : List TargetDeclaration}
    (built : s.build infers = .ok d) (htargets : s.targets = first :: others)
    (found : d.find? p = some f) (plain : f.nested = none) (untyped : f.declaredType? = none)
    (inferred : f.inference = true) :
    ∃ target : Indexable, d.resolve? p = some (f.infer (some target)) ∧
      target.infer f.name = Indexable.lookup first.name first.fields p := by
  obtain ⟨owner, howner, -, hsplit⟩ := Definition.exists_owner_of_find? found
  refine ⟨⟨first.mode, fun field => Indexable.lookup first.name first.fields
    (Path.ofSegments ((Path.segments p).dropLast ++ [field]))⟩, ?_, ?_⟩
  · -- the field is plain and untyped, so its fragment is what the owner infers
    rw [Definition.resolve?_of_find? found howner, Field.mapping_of_plain plain,
      Field.ownMapping_of_plain _ untyped plain, if_pos inferred,
      mainIndexable?_of_within? built htargets howner]
  · -- the names on the way and the name of the field are the segments of the path
    dsimp only
    rw [hsplit, Path.ofSegments_segments]

/-- Where the first target has an object for the whole path, the options of the field are laid
over that object. -/
theorem resolve?_of_object {first : TargetDeclaration} {others : List TargetDeclaration}
    (declared : s.OptionsDistinct) (built : s.build infers = .ok d)
    (htargets : s.targets = first :: others) (found : d.find? p = some f)
    (plain : f.nested = none) (untyped : f.declaredType? = none) (inferred : f.inference = true)
    {table : Document} (htable : first.fields.get? p = some (.object table)) :
    ∃ fragment, d.resolve? p = some (.ok fragment) ∧
      (∀ key, fragment.get? key = (f.options.get? key).or (table.get? key)) ∧
      fragment.keys = table.keys ++ f.options.keys.filter (fun key => key ∉ table.keys) := by
  obtain ⟨target, hresolve, hinfer⟩ :=
    resolve?_eq_infer built htargets found plain untyped inferred
  -- the options are a table as well, since building has kept them as they were declared
  have hdistinct : (f.options.entries.map Prod.fst).Nodup := by
    obtain ⟨owner, howner, hfield, -⟩ := Definition.exists_owner_of_find? found
    exact (Definition.Everywhere.within? (build_optionsDistinct built declared) howner).here
      f (Definition.mem_fields_of_field? hfield)
  rw [Indexable.lookup_eq_ok first.name htable] at hinfer
  refine ⟨table.insertAll f.options.entries, ?_, Table.get?_insertAll table hdistinct,
    Table.keys_insertAll table hdistinct⟩
  rw [hresolve, Field.infer, hinfer]

/-- Where it has no such object, the fault is about the path that was asked for. -/
theorem resolve?_of_no_object {first : TargetDeclaration} {others : List TargetDeclaration}
    (built : s.build infers = .ok d) (htargets : s.targets = first :: others)
    (found : d.find? p = some f) (plain : f.nested = none) (untyped : f.declaredType? = none)
    (inferred : f.inference = true)
    (hnone : ∀ table, first.fields.get? p ≠ some (.object table)) :
    ∃ fault, d.resolve? p = some (.error (.mapping p fault)) := by
  obtain ⟨target, hresolve, hinfer⟩ :=
    resolve?_eq_infer built htargets found plain untyped inferred
  obtain ⟨fault, hfault⟩ := Indexable.lookup_eq_error first.name hnone
  exact ⟨fault, by rw [hresolve, Field.infer, hinfer, hfault]⟩

/-- Targets of the same names and modes are accepted alike. -/
theorem commonMode_of_same {first : TargetDeclaration} {others others' : List TargetDeclaration}
    {mode : Mode}
    (same : others'.map (fun t => (t.name, t.mode)) = others.map (fun t => (t.name, t.mode)))
    (accepted : Target.commonMode ((first :: others).map TargetDeclaration.target) = .ok mode) :
    Target.commonMode ((first :: others').map TargetDeclaration.target) = .ok mode := by
  -- a name and a mode make up the standing of a target that is declared
  have hstanding : ∀ ts : List TargetDeclaration,
      (ts.map TargetDeclaration.target).map Target.standing =
        (ts.map (fun t => (t.name, t.mode))).map (fun s => (s.1, some s.2)) := by
    intro ts
    rw [List.map_map, List.map_map]
    rfl
  have hsame : (first :: others').map (fun t => (t.name, t.mode)) =
      (first :: others).map (fun t => (t.name, t.mode)) := congrArg (List.cons _) same
  rw [← accepted]
  refine Target.commonMode_congr ?_
  rw [hstanding, hstanding, hsame]

/-- The tables of the targets behind the first may be exchanged at will. -/
theorem exists_build_of_others {first : TargetDeclaration}
    {others others' : List TargetDeclaration} (built : s.build infers = .ok d)
    (htargets : s.targets = first :: others)
    (same : others'.map (fun t => (t.name, t.mode)) = others.map (fun t => (t.name, t.mode))) :
    ∃ d', SchemaDeclaration.build infers { s with targets := first :: others' } = .ok d' ∧
      ∀ p, d'.resolve? p = d.resolve? p := by
  obtain ⟨mode, fields, accepted, -, -⟩ := build_eq_ok built
  -- targets of the same modes are accepted, and only the first is ever asked
  have accepted' := commonMode_of_same same (htargets ▸ accepted)
  exact exists_build_of_keepFirst_eq { s with targets := first :: others' } accepted accepted'
    (by simp [keepFirst, htargets]) built

/-- **A field that is inferred gets what the first target has under its whole path.** Where
the table of that target holds an object, the fragment is that object with the options of
the field laid over it; where it holds nothing, or something else, resolving fails and the
error names the whole path. The tables of the other targets may be exchanged at will. -/
theorem inferred_resolution (declared : s.OptionsDistinct) (built : s.build infers = .ok d)
    (found : d.find? p = some f) (plain : f.nested = none) (untyped : f.declaredType? = none)
    (inferred : f.inference = true) :
    p ∈ d.expandedNames ∧
    ∃ first others, s.targets = first :: others ∧
      (∀ table, first.fields.get? p = some (.object table) →
        ∃ fragment, d.resolve? p = some (.ok fragment) ∧
          (∀ key, fragment.get? key = (f.options.get? key).or (table.get? key)) ∧
          fragment.keys = table.keys ++ f.options.keys.filter (fun key => key ∉ table.keys)) ∧
      ((∀ table, first.fields.get? p ≠ some (.object table)) →
        ∃ fault, d.resolve? p = some (.error (.mapping p fault))) ∧
      (∀ others' : List TargetDeclaration,
        others'.map (fun t => (t.name, t.mode)) = others.map (fun t => (t.name, t.mode)) →
        ∃ d', SchemaDeclaration.build infers { s with targets := first :: others' } = .ok d' ∧
          d'.resolve? p = d.resolve? p) := by
  obtain ⟨first, others, htargets⟩ := exists_first_of_build built
  refine ⟨?_, first, others, htargets, ?_, ?_, ?_⟩
  · -- a path that finds a field is listed
    exact mem_expandedNames_of_find? built found
  · -- the entry is an object: the options are written over it
    intro table htable
    exact resolve?_of_object declared built htargets found plain untyped inferred htable
  · -- there is no such object: the fault is about the path that was asked for
    intro hnone
    exact resolve?_of_no_object built htargets found plain untyped inferred hnone
  · -- the others are not asked
    intro others' hothers
    obtain ⟨d', hd', hsame⟩ := exists_build_of_others built htargets hothers
    exact ⟨d', hd', hsame p⟩

/-- The city of a seat, with options of its own. -/
def cityField : FieldDeclaration :=
  ⟨"city", none, none, ⟨[("boost", .ofNat 2), ("index", .bool true)]⟩⟩

/-- A schema of books. The city lies three fields deep, and only the table of the first
target has the options that count for it. -/
def bookSchema : SchemaDeclaration where
  name := "books"
  targets := [
    ⟨"Book", .index, ⟨[("publisher.seat.city",
      .ofMembers [("type", .string "keyword"), ("index", .bool false)])]⟩⟩,
    ⟨"Draft", .index, ⟨[("city", .ofMembers [("type", .string "text")])]⟩⟩]
  fields :=
    [⟨"publisher", none, some [⟨"seat", none, some [cityField], .empty⟩], .empty⟩]
  options := .empty

theorem bookSchema_optionsDistinct : bookSchema.OptionsDistinct := by
  have hcity : cityField.OptionsDistinct := .intro (by decide) (fun inner hi => by cases hi)
  have hseat : FieldDeclaration.OptionsDistinct ⟨"seat", none, some [cityField], .empty⟩ := by
    refine .intro List.nodup_nil fun inner hi g hg => ?_
    cases hi
    exact List.mem_singleton.mp hg ▸ hcity
  intro f hf
  obtain rfl := List.mem_singleton.mp hf
  refine .intro List.nodup_nil fun inner hi g hg => ?_
  cases hi
  exact List.mem_singleton.mp hg ▸ hseat

theorem bookSchema_city : ∃ d f, bookSchema.OptionsDistinct ∧ bookSchema.build true = .ok d ∧
    d.find? "publisher.seat.city" = some f ∧ f.nested = none ∧ f.declaredType? = none ∧
    f.inference = true ∧ ∃ fragment, d.resolve? "publisher.seat.city" = some (.ok fragment) ∧
      fragment.keys = ["type", "index", "boost"] ∧ fragment.get? "index" = some (.bool true) := by
  refine ⟨_, _, bookSchema_optionsDistinct, rfl, rfl, rfl, rfl, rfl, ?_⟩
  obtain ⟨-, first, others, htargets, hobject, -, -⟩ :=
    inferred_resolution bookSchema_optionsDistinct
      (show bookSchema.build true = .ok _ from rfl)
      (show Definition.find? _ "publisher.seat.city" = some _ from rfl) rfl rfl rfl
  cases htargets
  obtain ⟨fragment, hresolve, hget, hkeys⟩ := hobject _ rfl
  exact ⟨fragment, hresolve, hkeys, hget "index"⟩

end SchemaDeclaration

end SearchIndex
