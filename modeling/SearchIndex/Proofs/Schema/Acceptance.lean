import SearchIndex.Proofs.Outcome.Traversal
import SearchIndex.Proofs.Related
import SearchIndex.Proofs.Schema.Build

/-!
# Which schemas can be built

Building a schema checks targets and names as it goes, and checks the targets again at every
field with fields inside. What this comes to is a list of names. A declaration is refused for
its targets, or else for the first name, in the order in which the declarations are written
down (`SchemaDeclaration.names`), that is no segment of a path. `SchemaDeclaration.fault?`
computes the fault, and `SchemaDeclaration.error?_build` is that this is what the build reports.

The invariant of the recursion is that the targets pass the check. What has passed it passes it
again from inside any field (`Target.commonMode_within`), so no check of targets but the first
can fail (`FieldDeclaration.error?_build`).

What is built then mirrors its declaration (`Definition.Mirrors`): the targets have the declared
names and mode at every depth, and under each path stands the field that is declared there. Of
several declarations of one name it is the last; the others have been checked all the same.
-/

namespace SearchIndex

/-! ### Names in preorder -/

/-- The text can stand as a segment of a path. -/
def Path.IsSegment (name : String) : Prop := name ≠ "" ∧ '.' ∉ name.toList

instance (name : String) : Decidable (Path.IsSegment name) :=
  inferInstanceAs (Decidable (_ ∧ _))

mutual

/-- The name of a declaration, and behind it those of the declarations inside. -/
def FieldDeclaration.names : FieldDeclaration → List String
  | ⟨name, _, none, _⟩ => [name]
  | ⟨name, _, some inner, _⟩ => name :: FieldDeclaration.namesOf inner

/-- The names of all declarations of a list, in preorder. -/
def FieldDeclaration.namesOf : List FieldDeclaration → List String
  | [] => []
  | f :: rest => f.names ++ FieldDeclaration.namesOf rest

end

/-- The names of all fields that are declared, at every depth, in preorder. A name that is
declared twice is listed twice. -/
def SchemaDeclaration.names (s : SchemaDeclaration) : List String :=
  FieldDeclaration.namesOf s.fields

/-! ### The fault of a declaration -/

/-- What is wrong with the targets: there are none, or there is one with another mode than the
first. -/
def TargetDeclaration.fault? : List TargetDeclaration → Option ConfigurationFault
  | [] => some .noTargets
  | first :: rest => (rest.find? fun t => t.mode ≠ first.mode).map fun t =>
      .mixedModes first.name first.mode t.name t.mode

/-- What is wrong with some names: the first that is no segment of a path. -/
def FieldDeclaration.fault? (names : List String) : Option ConfigurationFault :=
  (names.find? fun name => ¬ Path.IsSegment name).map .fieldName

/-- What is wrong with a declaration. The targets come first. -/
def SchemaDeclaration.fault? (s : SchemaDeclaration) : Option ConfigurationFault :=
  (TargetDeclaration.fault? s.targets).or (FieldDeclaration.fault? s.names)

/-- The declarations from which a definition can be built. -/
structure SchemaDeclaration.Acceptable (s : SchemaDeclaration) : Prop where
  targets_ne_nil : s.targets ≠ []
  mode_eq : ∀ t ∈ s.targets, ∀ u ∈ s.targets, t.mode = u.mode
  isSegment : ∀ name ∈ s.names, Path.IsSegment name

/-- The targets are without fault exactly if there are some and all have one mode. -/
theorem TargetDeclaration.fault?_eq_none_iff {targets : List TargetDeclaration} :
    fault? targets = none ↔
      targets ≠ [] ∧ ∀ t ∈ targets, ∀ u ∈ targets, t.mode = u.mode := by
  cases targets with
  | nil => simp [fault?]
  | cons first rest =>
    have hfault : fault? (first :: rest) = none ↔ ∀ t ∈ rest, t.mode = first.mode := by
      simp [fault?]
    rw [hfault]
    constructor
    · -- all others have the mode of the first, so any two have the same
      intro hrest
      have hfirst : ∀ t ∈ first :: rest, t.mode = first.mode :=
        List.forall_mem_cons.mpr ⟨rfl, hrest⟩
      exact ⟨List.cons_ne_nil first rest, fun t ht u hu => (hfirst t ht).trans (hfirst u hu).symm⟩
    · rintro ⟨-, hsame⟩ t ht
      exact hsame t (List.mem_cons_of_mem first ht) first List.mem_cons_self

/-- Nothing is wrong with the acceptable declarations, and with no other. -/
theorem SchemaDeclaration.fault?_eq_none_iff {s : SchemaDeclaration} :
    s.fault? = none ↔ s.Acceptable := by
  have hnames : FieldDeclaration.fault? s.names = none ↔
      ∀ name ∈ s.names, Path.IsSegment name := by
    simp [FieldDeclaration.fault?]
  rw [fault?, Option.or_eq_none_iff, TargetDeclaration.fault?_eq_none_iff, hnames]
  exact ⟨fun ⟨⟨hne, hsame⟩, hall⟩ => ⟨hne, hsame, hall⟩, fun ⟨hne, hsame, hall⟩ =>
    ⟨⟨hne, hsame⟩, hall⟩⟩

/-! ### The error of a build -/

open Outcome (error?)

/-- The check of the declared targets. -/
theorem TargetDeclaration.error?_commonMode (targets : List TargetDeclaration) :
    error? (Target.commonMode (targets.map target)) =
      (fault? targets).map .configuration := by
  cases targets with
  | nil => rfl
  | cons first rest =>
    -- every declared target is indexable, so it is the modes that are compared
    have hrest : error? (Target.checkRest first.name first.mode (rest.map target)) =
        (fault? (first :: rest)).map .configuration := by
      induction rest with
      | nil => rfl
      | cons t rest ih =>
        by_cases hmode : t.mode = first.mode
        · simpa [Target.checkRest, target, Target.ofTable, fault?, hmode] using ih
        · simp [Target.checkRest, target, Target.ofTable, fault?, hmode]
    exact hrest

namespace FieldDeclaration

variable {infers : Bool} {targets : List Target} {mode : Mode}

theorem isName_iff {name : String} : isName name = true ↔ Path.IsSegment name := by
  simp [isName, Path.IsSegment, Path.hasDot]

/-- A field without fields inside counts as one with none of them. -/
theorem names_eq (f : FieldDeclaration) : f.names = f.name :: namesOf (f.fields.getD []) := by
  obtain ⟨name, inference, fields, options⟩ := f
  cases fields <;> rfl

/-- The fault of names in front of others counts first. -/
theorem fault?_append (names others : List String) :
    fault? (names ++ others) = (fault? names).or (fault? others) := by
  rw [fault?, List.find?_append, Option.map_or]
  rfl

theorem fault?_cons_of_isSegment {name : String} (h : Path.IsSegment name)
    (others : List String) : fault? (name :: others) = fault? others := by
  simp [fault?, h]

theorem fault?_cons_of_not_isSegment {name : String} (h : ¬ Path.IsSegment name)
    (others : List String) : fault? (name :: others) = some (.fieldName name) := by
  simp [fault?, h]

/-- A bad name is reported before anything else is looked at. -/
theorem build_of_not_isName {f : FieldDeclaration} (h : ¬ isName f.name = true) :
    f.build infers targets = .error (.configuration (.fieldName f.name)) := by
  -- with and without fields inside, the name comes first
  cases hfields : f.fields with
  | none => rw [build_of_plain hfields, if_neg h]
  | some decls => rw [build_of_compound hfields, if_neg h]

/-- A list of declarations reports its first fault if each of them does. -/
theorem error?_buildAll {decls : List FieldDeclaration}
    (h : ∀ g ∈ decls, error? (g.build infers targets) = (fault? g.names).map .configuration) :
    error? (buildAll infers targets decls) = (fault? (namesOf decls)).map .configuration := by
  induction decls with
  | nil => rfl
  | cons g rest ih =>
    have hrest := ih fun k hk => h k (List.mem_cons_of_mem g hk)
    rw [buildAll, Outcome.error?_bind_map, h g List.mem_cons_self, hrest, namesOf,
      fault?_append, Option.map_or]

/-- **The only fault inside accepted targets is a name**, and the first one in preorder is
reported. -/
theorem error?_build {targets : List Target} (accepted : Target.commonMode targets = .ok mode)
    (f : FieldDeclaration) :
    error? (f.build infers targets) = (fault? f.names).map .configuration := by
  rw [names_eq]
  by_cases hname : Path.IsSegment f.name
  · rw [fault?_cons_of_isSegment hname]
    cases hfields : f.fields with
    | none =>
      -- there is nothing inside, and nothing that could be wrong with it
      rw [build_of_plain hfields, if_pos (isName_iff.mpr hname)]
      rfl
    | some decls =>
      -- the check of the targets passes again, so what is left is the names inside
      have hinside := Target.commonMode_within accepted f.name
      have hall := error?_buildAll fun g hg =>
        have := sizeOf_inner_lt hfields hg
        error?_build hinside g
      rw [build_of_compound hfields, if_pos (isName_iff.mpr hname)]
      dsimp only
      rw [hinside, Except.bind, Outcome.error?_map, hall, Option.getD_some]
  · rw [build_of_not_isName fun h => hname (isName_iff.mp h),
      fault?_cons_of_not_isSegment hname]
    rfl
termination_by sizeOf f

end FieldDeclaration

/-- **A build reports the fault of its declaration**, and succeeds if there is none. -/
theorem SchemaDeclaration.error?_build (infers : Bool) (s : SchemaDeclaration) :
    error? (s.build infers) = s.fault?.map .configuration := by
  have htargets := TargetDeclaration.error?_commonMode s.targets
  rw [build_eq, fault?]
  dsimp only
  cases hmode : Target.commonMode (s.targets.map TargetDeclaration.target) with
  | error e =>
    -- the targets are refused, for the fault that the check of them reports
    rw [hmode] at htargets
    cases hfault : TargetDeclaration.fault? s.targets with
    | none => simp [hfault] at htargets
    | some fault => simpa [hfault, Except.bind] using htargets
  | ok mode =>
    -- the targets are without fault, so the fields are built for them
    rw [hmode] at htargets
    have hnone : TargetDeclaration.fault? s.targets = none := by simpa using htargets.symm
    rw [hnone, Option.none_or, Except.bind, Outcome.error?_map]
    exact FieldDeclaration.error?_buildAll fun g _ => FieldDeclaration.error?_build hmode g

/-! ### What is built -/

/-- The declaration of a name: of several the last. -/
def FieldDeclaration.lastNamed? (decls : List FieldDeclaration) (name : String) :
    Option FieldDeclaration :=
  decls.reverse.find? fun g => g.name == name

/-- The declaration at the end of a list of names, each looked up inside the one before. -/
def FieldDeclaration.find? : List FieldDeclaration → List String → Option FieldDeclaration
  | _, [] => none
  | decls, [name] => lastNamed? decls name
  | decls, name :: rest =>
    (lastNamed? decls name).bind fun g => g.fields.bind fun inner => find? inner rest

/-- The field is one such as is declared. What is inside it is another matter. -/
structure Field.DeclaredBy (infers : Bool) (f : Field) (g : FieldDeclaration) : Prop where
  name : f.name = g.name
  options : f.options = g.options
  inference : f.inference = g.inference.getD infers
  isCompound : f.isCompound = g.fields.isSome

/-- The targets of the definition have the given names and mode. -/
def Definition.BackedAs (names : List String) (mode : Mode) (d : Definition) : Prop :=
  d.targets.map Target.name = names ∧ d.mode = some mode

/-- The definition has the declared targets and mode at every depth, and at every path the field
that is declared there, or none. -/
structure Definition.Mirrors (d : Definition) (infers : Bool) (s : SchemaDeclaration) : Prop where
  targets : d.Everywhere fun e => e.targets.map Target.name = s.targets.map TargetDeclaration.name
  mode : d.Everywhere fun e => ∀ t ∈ s.targets, e.mode = some t.mode
  fields : ∀ path, Option.Rel (Field.DeclaredBy infers) (d.find? path)
    (FieldDeclaration.find? s.fields (Path.segments path))

/-- Of the fields registered the last one of a name is found. -/
theorem Draft.find?_registerIn (f : Field) (fields : List Field) (name : String) :
    (registerIn f fields).find? (fun g => g.name == name) =
      if f.name = name then some f else fields.find? (fun g => g.name == name) := by
  induction fields with
  | nil => by_cases h : f.name = name <;> simp [registerIn, h]
  | cons k rest ih =>
    by_cases hk : k.name = f.name
    · -- `f` takes the place of `k`, whose name it has
      by_cases h : f.name = name <;> simp [registerIn, hk, h]
    · -- another field of the list may be the one of the name
      by_cases h : f.name = name
      · have hne : k.name ≠ name := fun e => hk (e.trans h.symm)
        simp [registerIn, hne, ih, h]
      · simp [registerIn, hk, List.find?_cons, ih, h]

namespace Definition

variable {infers : Bool} {targets : List Target} {mode : Mode} {options : Options}

@[simp] theorem mode_assembled {fields : List Field} :
    (assembled targets mode options fields).mode = some mode := by
  rw [assembled, Draft.freeze, Draft.contents_registerAll]

theorem everywhere_assembled {fields : List Field} {names : List String}
    (hnames : targets.map Target.name = names)
    (inside : ∀ f ∈ fields, ∀ inner, f.nested = some inner →
      inner.Everywhere (BackedAs names mode)) :
    (assembled targets mode options fields).Everywhere (BackedAs names mode) :=
  .intro ⟨by rw [targets_assembled, hnames], mode_assembled⟩
    fun f hf => inside f (mem_fields_assembled hf)

/-- The field of a name is the one registered last under it. -/
theorem field?_assembled (fields : List Field) (name : String) :
    (assembled targets mode options fields).field? name =
      fields.reverse.find? (fun g => g.name == name) := by
  -- over the fields registered so far, whatever had been registered before
  have hfold : ∀ held : List Field,
      (fields.foldl (fun held f => Draft.registerIn f held) held).find?
          (fun g => g.name == name) =
        (fields.reverse.find? (fun g => g.name == name)).or
          (held.find? (fun g => g.name == name)) := by
    induction fields with
    | nil => exact fun held => rfl
    | cons f rest ih =>
      intro held
      rw [List.foldl_cons, ih, Draft.find?_registerIn, List.reverse_cons, List.find?_append,
        Option.or_assoc]
      by_cases h : f.name = name <;> simp [h]
  rw [field?, assembled, Draft.freeze, Draft.contents_registerAll, hfold]
  simp

end Definition

namespace FieldDeclaration

variable {infers : Bool} {targets : List Target}

theorem buildAll_eq_mapM (infers : Bool) (targets : List Target)
    (decls : List FieldDeclaration) :
    buildAll infers targets decls = decls.mapM (build infers targets) := by
  induction decls with
  | nil => rfl
  | cons g rest ih => rw [buildAll, ih, Outcome.mapM_cons]

theorem declaredBy_of_build {g : FieldDeclaration} {f : Field}
    (h : g.build infers targets = .ok f) : f.DeclaredBy infers g := by
  obtain ⟨-, ⟨hfields, rfl⟩ | ⟨decls, mode, built, hfields, -, -, rfl⟩⟩ := build_eq_ok h
  · exact ⟨rfl, rfl, rfl, by rw [hfields]; rfl⟩
  · exact ⟨rfl, rfl, rfl, by rw [hfields]; rfl⟩

/-- Under a name stands the field built from its last declaration. -/
theorem rel_field?_assembled {decls : List FieldDeclaration} {fields : List Field} {mode : Mode}
    {options : Options} (h : buildAll infers targets decls = .ok fields) (name : String) :
    Option.Rel (fun f g => g.build infers targets = .ok f)
      ((Definition.assembled targets mode options fields).field? name)
      (lastNamed? decls name) := by
  rw [buildAll_eq_mapM, Outcome.mapM_eq_ok_iff] at h
  rw [Definition.field?_assembled, lastNamed?]
  -- seen from the ends, the fields still stand to their declarations as they were built
  refine Related.find? (List.forall₂_reverse_iff.mpr h.flip) fun f g hfg => ?_
  rw [(declaredBy_of_build hfg).name]

/-- **Under a path stands what is declared there.** -/
theorem rel_findSegments?_assembled {decls : List FieldDeclaration} {fields : List Field}
    {mode : Mode} {options : Options} (h : buildAll infers targets decls = .ok fields)
    (names : List String) :
    Option.Rel (Field.DeclaredBy infers)
      ((Definition.assembled targets mode options fields).findSegments? names)
      (find? decls names) := by
  -- name by name, with the declarations inside the field that has been found
  induction names generalizing targets decls fields mode options with
  | nil => exact .none
  | cons name rest ih =>
    have hhere : Option.Rel (fun f g => g.build infers targets = .ok f)
        ((Definition.assembled targets mode options fields).field? name)
        (lastNamed? decls name) := rel_field?_assembled h name
    cases rest with
    | nil => exact Related.imp hhere fun f g hfg => declaredBy_of_build hfg
    | cons next rest =>
      rw [Definition.findSegments?, find?]
      · refine Related.bind hhere fun f g hfg => ?_
        -- the path goes on inside `f` if it has been built with fields inside
        obtain ⟨-, ⟨hfields, rfl⟩ | ⟨inner, mode, built, hfields, -, hbuilt, rfl⟩⟩ :=
          build_eq_ok hfg
        · rw [hfields]
          exact .none
        · rw [hfields]
          exact ih hbuilt
      all_goals exact fun e => List.cons_ne_nil next rest e

/-- The definitions inside a field that is built have the names of the targets it is built for,
and their mode. -/
theorem everywhere_of_build {f : FieldDeclaration} {b : Field} {mode : Mode}
    (h : f.build infers targets = .ok b) (accepted : Target.commonMode targets = .ok mode) :
    ∀ inner, b.nested = some inner →
      inner.Everywhere (Definition.BackedAs (targets.map Target.name) mode) := by
  revert accepted
  refine build_induction (motive := fun targets _ b => Target.commonMode targets = .ok mode →
    ∀ inner, b.nested = some inner →
      inner.Everywhere (Definition.BackedAs (targets.map Target.name) mode)) ?plain ?compound h
  case plain => exact fun targets f _ _ inner hn => by cases hn
  case compound =>
    intro targets f decls mode' built _ _ hmode' ih accepted inner hn
    obtain rfl := Option.some.inj hn
    -- the mode that the check finds inside is the one that it has found outside
    have hinside := Target.commonMode_within accepted f.name
    obtain rfl : mode' = mode := Except.ok.inj (hmode'.symm.trans hinside)
    have hnames : (targets.map fun t => t.within f.name).map Target.name =
        targets.map Target.name := by
      rw [List.map_map]
      rfl
    -- inside the fields the names of the targets are still those
    refine Definition.everywhere_assembled hnames fun k hk inner hn => ?_
    obtain ⟨g, -, hg⟩ := ih k hk
    exact hnames ▸ hg hinside inner hn

end FieldDeclaration

namespace SchemaDeclaration

variable {infers : Bool} {s : SchemaDeclaration} {d : Definition}

/-- **What is built mirrors what is declared.** -/
theorem build_mirrors (h : s.build infers = .ok d) : d.Mirrors infers s := by
  obtain ⟨mode, fields, hmode, hfields, rfl⟩ := build_eq_ok h
  have hdeclared := (TargetDeclaration.commonMode_target_eq_ok_iff.mp hmode).2
  have hnames : (s.targets.map TargetDeclaration.target).map Target.name =
      s.targets.map TargetDeclaration.name := by
    rw [List.map_map]
    rfl
  have heverywhere : (Definition.assembled (s.targets.map TargetDeclaration.target) mode
      (Options.empty.insertAll s.options.entries) fields).Everywhere
        (Definition.BackedAs (s.targets.map TargetDeclaration.name) mode) := by
    -- the fields of the schema are built for the declared targets themselves
    refine Definition.everywhere_assembled hnames fun f hf inner hn => ?_
    obtain ⟨g, -, hg⟩ := FieldDeclaration.exists_of_buildAll hfields f hf
    exact hnames ▸ FieldDeclaration.everywhere_of_build hg hmode inner hn
  exact
    { targets := heverywhere.imp fun e he => he.1
      mode := heverywhere.imp fun e he t ht => hdeclared t ht ▸ he.2
      fields := fun path => FieldDeclaration.rel_findSegments?_assembled hfields _ }

/-- The targets pass the check again inside any fields, if nothing is wrong with them. -/
theorem exists_setTargets_within (h : TargetDeclaration.fault? s.targets = none)
    (outer : List String) :
    ∃ draft, Draft.empty.setTargets
      (s.targets.map fun t => outer.foldl Target.within t.target) = .ok draft := by
  have hnoerror := TargetDeclaration.error?_commonMode s.targets
  cases hmode : Target.commonMode (s.targets.map TargetDeclaration.target) with
  | error e =>
    rw [hmode, h] at hnoerror
    cases hnoerror
  | ok mode =>
    have hinside := Target.commonMode_foldl_within hmode outer
    rw [List.map_map] at hinside
    exact ⟨_, Draft.setTargets_eq_ok_iff.mpr ⟨mode, hinside, rfl⟩⟩

/-- **Which schemas can be built, and what they become.** A build succeeds exactly for the
acceptable declarations. Any other it refuses as a configuration, for a fault of the targets if
there is one and else for the first bad name; the targets that a field passes on to the fields
inside are never at fault. A definition that is built mirrors the declaration at every depth. -/
theorem build_acceptance (infers : Bool) (s : SchemaDeclaration) :
    ((∃ d, s.build infers = .ok d) ↔ s.Acceptable) ∧
    (∀ e, s.build infers = .error e ↔ ∃ fault, s.fault? = some fault ∧ e = .configuration fault) ∧
    (TargetDeclaration.fault? s.targets = none → ∀ outer : List String, ∃ draft,
      Draft.empty.setTargets (s.targets.map fun t => outer.foldl Target.within t.target) =
        .ok draft) ∧
    ∀ d, s.build infers = .ok d → d.Mirrors infers s := by
  have hreport := error?_build infers s
  refine ⟨?accepted, fun e => ?refused, fun h outer => exists_setTargets_within h outer,
    fun d hd => build_mirrors hd⟩
  case accepted =>
    rw [← fault?_eq_none_iff]
    -- the build succeeds exactly if there is no fault to report
    cases hb : s.build infers with
    | ok d => simpa [hb] using hreport.symm
    | error e =>
      rw [hb] at hreport
      cases hfault : s.fault? <;> simp [hfault] at hreport ⊢
  case refused =>
    rw [← Outcome.error?_eq_some_iff, hreport, Option.map_eq_some_iff]
    simp only [eq_comm]

/-- A declaration that a later one replaces is checked with all that is inside it. -/
example : SchemaDeclaration.build true
    ⟨"Book", [⟨"Book", .index, .empty⟩],
      [⟨"title", none, some [⟨"x.y", none, none, .empty⟩], .empty⟩,
        ⟨"title", none, none, .empty⟩], .empty⟩ =
    .error (.configuration (.fieldName "x.y")) := rfl

end SchemaDeclaration

end SearchIndex
