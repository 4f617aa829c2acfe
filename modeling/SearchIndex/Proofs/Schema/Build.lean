import SearchIndex.Proofs.Definition.Frozen
import SearchIndex.Proofs.Outcome
import SearchIndex.Schema

/-!
# What building a schema makes

Building fails or makes a definition that mirrors its declaration. A successful run is
taken apart once (`FieldDeclaration.build_eq_ok`, `SchemaDeclaration.build_eq_ok`), and
`FieldDeclaration.build_induction` turns that into a rule for everything that holds of
built fields.

Three facts follow by that rule for the definition of a schema, at every depth
(`SchemaDeclaration.build_sound`). It is frozen; its names hold no dot, since a declared
name is checked first; and the targets of a definition inside it are those of the schema,
seen from inside one field after the other (`Definition.ScopedBy`). A fourth needs the
options of the declarations to have distinct keys (`FieldDeclaration.OptionsDistinct`), as
those of every declaration that is read have: the options of the fields then have distinct
keys as well.
-/

namespace SearchIndex

/-- The definition that a draft with the given targets and options hands out after
fields have been registered one after the other. -/
def Definition.assembled (targets : List Target) (mode : Mode) (options : Options)
    (fields : List Field) : Definition :=
  ((Draft.mk ⟨targets, some mode, [], options⟩).registerAll fields).freeze

namespace Definition

variable {targets : List Target} {mode : Mode} {options : Options} {fields : List Field}

@[simp] theorem targets_assembled :
    (assembled targets mode options fields).targets = targets := by
  rw [assembled, Draft.freeze, Draft.contents_registerAll]

theorem mem_fields_assembled {f : Field}
    (h : f ∈ (assembled targets mode options fields).fields) : f ∈ fields :=
  (Draft.mem_fields_registerAll h).resolve_left List.not_mem_nil

/-- The targets at every depth are the given ones, seen from inside the fields on the way,
the outermost scope first. -/
def ScopedBy (d : Definition) (targets : List Target) : Prop :=
  ∀ outer e, d.within? outer = some e →
    e.targets = targets.map (fun t => outer.foldl Target.within t)

theorem ScopedBy.intro {d : Definition} (htargets : d.targets = targets)
    (inside : ∀ f ∈ d.fields, ∀ inner, f.nested = some inner →
      inner.ScopedBy (targets.map (fun t => t.within f.name))) : d.ScopedBy targets := by
  intro outer e he
  cases outer with
  | nil =>
    obtain rfl : d = e := Option.some.inj he
    rw [htargets]
    exact (List.map_id' targets).symm
  | cons name rest =>
    -- the scope of `f` is put around the targets first, those of `rest` around that
    obtain ⟨f, inner, hf, hn, hrest⟩ := within?_cons_eq_some_iff.mp he
    rw [inside f (mem_fields_of_field? hf) inner hn rest e hrest, List.map_map,
      name_of_field? hf]
    rfl

/-- What building a schema guarantees of a definition with the given targets. -/
structure SoundFor (d : Definition) (targets : List Target) : Prop where
  frozen : d.Frozen
  dotFree : d.DotFree
  scopes : d.ScopedBy targets

end Definition

/-- What building guarantees of a field in a definition with the given targets. -/
structure Field.SoundIn (f : Field) (targets : List Target) : Prop where
  name_dotFree : Path.hasDot f.name = false
  inside : ∀ inner, f.nested = some inner →
    inner.SoundFor (targets.map (fun t => t.within f.name))

/-- Registering sound fields makes a sound definition. -/
theorem Definition.soundFor_assembled {targets : List Target} {mode : Mode}
    {options : Options} {fields : List Field}
    (accepted : Target.commonMode targets = .ok mode)
    (sound : ∀ f ∈ fields, f.SoundIn targets) :
    (assembled targets mode options fields).SoundFor targets where
  frozen :=
    ((Draft.Built.ofTargets accepted).changeOptions (fun _ => options)).registerAll
      (fun f hf inner hn => ((sound f hf).inside inner hn).frozen)
  dotFree := by
    refine .intro (fun name hname => ?_)
      (fun f hf inner hn => ((sound f (mem_fields_assembled hf)).inside inner hn).dotFree)
    obtain ⟨f, hf, rfl⟩ := List.mem_map.mp hname
    exact (sound f (mem_fields_assembled hf)).name_dotFree
  scopes := .intro targets_assembled
    (fun f hf inner hn => ((sound f (mem_fields_assembled hf)).inside inner hn).scopes)

namespace FieldDeclaration

variable {infers : Bool} {targets : List Target} {f : FieldDeclaration} {b : Field}

/-! ### Taking a run apart -/

/-- A declaration inside another one is smaller. -/
theorem sizeOf_inner_lt {g : FieldDeclaration} {inner : List FieldDeclaration}
    (hi : f.fields = some inner) (hg : g ∈ inner) : sizeOf g < sizeOf f := by
  obtain ⟨name, inference, fields, options⟩ := f
  have hlt := List.sizeOf_lt_of_mem hg
  subst hi
  simp only [FieldDeclaration.mk.sizeOf_spec, Option.some.sizeOf_spec]
  omega

/-- The field that a declaration describes, apart from the fields inside it. -/
def fieldWith (infers : Bool) (f : FieldDeclaration) (nested : Option Definition) : Field :=
  ⟨f.name, f.options, f.inference.getD infers, nested⟩

/-- A field without fields inside needs a good name and nothing else. -/
theorem build_of_plain (h : f.fields = none) :
    f.build infers targets =
      if isName f.name then .ok (f.fieldWith infers none)
      else .error (.configuration (.fieldName f.name)) := by
  obtain ⟨name, inference, fields, options⟩ := f
  subst h
  rw [build]
  rfl

/-- A field with fields inside needs a good name, targets that pass the check as seen from inside,
and fields that can be built for them. -/
theorem build_of_compound {decls : List FieldDeclaration} (h : f.fields = some decls) :
    f.build infers targets =
      if isName f.name then
        let inside := targets.map (fun t => t.within f.name)
        (Target.commonMode inside).bind (fun mode =>
          (buildAll infers inside decls).map (fun built =>
            f.fieldWith infers (some (.assembled inside mode .empty built))))
      else .error (.configuration (.fieldName f.name)) := by
  obtain ⟨name, inference, fields, options⟩ := f
  subst h
  rw [build]
  dsimp only
  rw [Draft.setTargets_empty, Outcome.bind_map]
  rfl

/-- Every field of a list comes from one of the declarations. -/
theorem exists_of_buildAll {decls : List FieldDeclaration} {fields : List Field}
    (h : buildAll infers targets decls = .ok fields) :
    ∀ b ∈ fields, ∃ g ∈ decls, g.build infers targets = .ok b := by
  -- the fields are built in the order of the declarations
  induction decls generalizing fields with
  | nil =>
    cases h
    exact fun b hb => absurd hb List.not_mem_nil
  | cons g rest ih =>
    rw [buildAll, Outcome.bind_eq_ok_iff] at h
    obtain ⟨built, hbuilt, h⟩ := h
    obtain ⟨others, hothers, rfl⟩ := Outcome.map_eq_ok_iff.mp h
    intro b hb
    rcases List.mem_cons.mp hb with rfl | hb
    · exact ⟨g, List.mem_cons_self, hbuilt⟩
    · obtain ⟨k, hk, hkb⟩ := ih hothers b hb
      exact ⟨k, List.mem_cons_of_mem g hk, hkb⟩

/-- **A successful run.** The name has been accepted, and if there are fields inside, the
targets have been accepted as seen from there, and the fields have been built for them. -/
theorem build_eq_ok (h : f.build infers targets = .ok b) :
    isName f.name = true ∧
      (f.fields = none ∧ b = f.fieldWith infers none ∨
        ∃ decls mode built, f.fields = some decls ∧
          Target.commonMode (targets.map (fun t => t.within f.name)) = .ok mode ∧
          buildAll infers (targets.map (fun t => t.within f.name)) decls = .ok built ∧
          b = f.fieldWith infers
            (some (.assembled (targets.map (fun t => t.within f.name)) mode .empty built))) := by
  cases hfields : f.fields with
  | none =>
    rw [build_of_plain hfields] at h
    split at h
    · -- the name is good, and nothing else can fail
      next hname =>
      cases h
      exact ⟨hname, Or.inl ⟨rfl, rfl⟩⟩
    · cases h
  | some decls =>
    rw [build_of_compound hfields] at h
    split at h
    · next hname =>
      -- the name is good, and what was built inside is taken out step by step
      obtain ⟨mode, hmode, h⟩ := Outcome.bind_eq_ok_iff.mp h
      obtain ⟨built, hbuilt, rfl⟩ := Outcome.map_eq_ok_iff.mp h
      exact ⟨hname, Or.inr ⟨decls, mode, built, rfl, hmode, hbuilt, rfl⟩⟩
    · cases h

/-- **Induction over a successful run.** What holds of every field without fields inside,
and passes from the fields inside to the field around them, holds of every built field. -/
theorem build_induction {motive : List Target → FieldDeclaration → Field → Prop}
    (plain : ∀ targets f, isName f.name = true → motive targets f (f.fieldWith infers none))
    (compound : ∀ targets f decls mode built, isName f.name = true →
      f.fields = some decls →
      Target.commonMode (targets.map (fun t => t.within f.name)) = .ok mode →
      (∀ b ∈ built, ∃ g ∈ decls, motive (targets.map (fun t => t.within f.name)) g b) →
      motive targets f (f.fieldWith infers
        (some (.assembled (targets.map (fun t => t.within f.name)) mode .empty built))))
    {targets : List Target} {f : FieldDeclaration} {b : Field}
    (h : f.build infers targets = .ok b) : motive targets f b := by
  obtain ⟨hname, ⟨-, rfl⟩ | ⟨decls, mode, built, hdecls, hmode, hbuilt, rfl⟩⟩ := build_eq_ok h
  · exact plain targets f hname
  · -- the fields inside come from declarations that are smaller
    refine compound targets f decls mode built hname hdecls hmode fun b hb => ?_
    obtain ⟨g, hg, hgb⟩ := exists_of_buildAll hbuilt b hb
    have := sizeOf_inner_lt hdecls hg
    exact ⟨g, hg, build_induction plain compound hgb⟩
termination_by sizeOf f

/-! ### What is built -/

theorem not_hasDot_of_isName {name : String} (h : isName name = true) :
    Path.hasDot name = false := by
  simpa using (Bool.and_eq_true_iff.mp h).2

/-- **What is built is sound** in a definition with the targets that it is built for. -/
theorem build_sound (h : f.build infers targets = .ok b) : b.SoundIn targets := by
  refine build_induction (motive := fun targets _ b => b.SoundIn targets) ?plain ?compound h
  case plain =>
    intro targets f hname
    exact ⟨not_hasDot_of_isName hname, fun inner hn => by cases hn⟩
  case compound =>
    intro targets f decls mode built hname _ hmode ih
    refine ⟨not_hasDot_of_isName hname, fun inner hn => ?_⟩
    obtain rfl := Option.some.inj hn
    -- the definition inside is assembled of fields that are sound by induction
    exact Definition.soundFor_assembled hmode fun b hb => (ih b hb).elim fun g hg => hg.2

/-- No option is declared twice, in a field or in one inside it. -/
inductive OptionsDistinct : FieldDeclaration → Prop where
  | intro {f : FieldDeclaration} (here : f.options.keys.Nodup)
      (inside : ∀ inner, f.fields = some inner → ∀ g ∈ inner, OptionsDistinct g) :
      OptionsDistinct f

end FieldDeclaration

/-- No field of the definition has an option twice. -/
def Definition.OptionsDistinct (d : Definition) : Prop :=
  d.Everywhere fun e => ∀ f ∈ e.fields, f.options.keys.Nodup

/-- Fields with distinct options are assembled to a definition of which all have. -/
theorem Definition.optionsDistinct_assembled {targets : List Target} {mode : Mode}
    {options : Options} {fields : List Field}
    (distinct : ∀ f ∈ fields, f.options.keys.Nodup ∧
      ∀ inner, f.nested = some inner → inner.OptionsDistinct) :
    (assembled targets mode options fields).OptionsDistinct :=
  .intro (fun f hf => (distinct f (mem_fields_assembled hf)).1)
    (fun f hf => (distinct f (mem_fields_assembled hf)).2)

/-- Building a field keeps its options as they are declared. -/
theorem FieldDeclaration.build_optionsDistinct {infers : Bool} {targets : List Target}
    {f : FieldDeclaration} {b : Field} (h : f.build infers targets = .ok b)
    (declared : f.OptionsDistinct) :
    b.options.keys.Nodup ∧ ∀ inner, b.nested = some inner → inner.OptionsDistinct := by
  revert declared
  refine build_induction (motive := fun _ f b => f.OptionsDistinct →
    b.options.keys.Nodup ∧ ∀ inner, b.nested = some inner → inner.OptionsDistinct)
    ?plain ?compound h
  case plain =>
    rintro targets f - ⟨here, -⟩
    exact ⟨here, fun inner hn => by cases hn⟩
  case compound =>
    rintro targets f decls mode built - hdecls - ih ⟨here, inside⟩
    refine ⟨here, fun inner hn => ?_⟩
    obtain rfl := Option.some.inj hn
    refine Definition.optionsDistinct_assembled fun b hb => ?_
    obtain ⟨g, hg, hgb⟩ := ih b hb
    exact hgb (inside decls hdecls g hg)

/-- Declared targets pass the check with the mode that all of them have. -/
theorem TargetDeclaration.commonMode_target_eq_ok_iff {targets : List TargetDeclaration}
    {mode : Mode} :
    Target.commonMode (targets.map TargetDeclaration.target) = .ok mode ↔
      targets ≠ [] ∧ ∀ t ∈ targets, t.mode = mode := by
  simp [Target.commonMode_eq_ok_iff, TargetDeclaration.target, Target.ofTable]

namespace SchemaDeclaration

variable {infers : Bool} {s : SchemaDeclaration} {d : Definition}

/-- No option of a field is declared twice. -/
def OptionsDistinct (s : SchemaDeclaration) : Prop := ∀ f ∈ s.fields, f.OptionsDistinct

/-- Building a schema checks its targets and builds its fields for them. -/
theorem build_eq (infers : Bool) (s : SchemaDeclaration) :
    s.build infers =
      let targets := s.targets.map TargetDeclaration.target
      (Target.commonMode targets).bind (fun mode =>
        (FieldDeclaration.buildAll infers targets s.fields).map (fun fields =>
          .assembled targets mode (Options.empty.insertAll s.options.entries) fields)) := by
  rw [build]
  dsimp only
  rw [Draft.setTargets_empty, Outcome.bind_map]
  rfl

/-- A schema that is built comes from targets that are accepted and fields that are built. -/
theorem build_eq_ok (h : s.build infers = .ok d) :
    ∃ mode fields, Target.commonMode (s.targets.map TargetDeclaration.target) = .ok mode ∧
      FieldDeclaration.buildAll infers (s.targets.map TargetDeclaration.target) s.fields =
        .ok fields ∧
      d = .assembled (s.targets.map TargetDeclaration.target) mode
        (Options.empty.insertAll s.options.entries) fields := by
  obtain ⟨mode, hmode, h⟩ := Outcome.bind_eq_ok_iff.mp (build_eq infers s ▸ h)
  obtain ⟨fields, hfields, rfl⟩ := Outcome.map_eq_ok_iff.mp h
  exact ⟨mode, fields, hmode, hfields, rfl⟩

/-- **The definition of a schema** is frozen, its names hold no dot, and its targets are
those declared, seen from inside the fields on the way. -/
theorem build_sound (h : s.build infers = .ok d) :
    d.SoundFor (s.targets.map TargetDeclaration.target) := by
  obtain ⟨mode, fields, hmode, hfields, rfl⟩ := build_eq_ok h
  refine Definition.soundFor_assembled hmode fun b hb => ?_
  obtain ⟨g, -, hgb⟩ := FieldDeclaration.exists_of_buildAll hfields b hb
  exact FieldDeclaration.build_sound hgb

theorem build_optionsDistinct (h : s.build infers = .ok d) (declared : s.OptionsDistinct) :
    d.OptionsDistinct := by
  obtain ⟨mode, fields, -, hfields, rfl⟩ := build_eq_ok h
  refine Definition.optionsDistinct_assembled fun b hb => ?_
  obtain ⟨g, hg, hgb⟩ := FieldDeclaration.exists_of_buildAll hfields b hb
  exact FieldDeclaration.build_optionsDistinct hgb (declared g hg)

end SchemaDeclaration

end SearchIndex
