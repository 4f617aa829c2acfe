import SearchIndex.Definition.Lint
import SearchIndex.Proofs.Definition.Paths
import SearchIndex.Proofs.Definition.Rendering
import SearchIndex.Proofs.Definition.Resolution

/-!
# What a check foretells of the mapping

The check of a definition looks at its fields without asking a target, and the mapping is
put together without looking at the check. They walk through the tree on their own: the
check carries a text that grows by a dotted name at each level and goes on behind every
issue, the mapping knows names only and stops at its first failure.

The main result, `Draft.lint_foretells_mapping`, says that they agree. The check reports
exactly the paths, in the order of the expanded names, at which a field can have no type
(`Field.isUntypable`). Each of these makes the mapping fail; and where targets answer for
all the fields that are inferred (`Definition.Inferable`) nothing else does, so that the
mapping fails with the first path of the check.

As before the two recursions meet in the list of sites: `Definition.fieldIssues_eq_map_sites`
and `Definition.error?_properties` both run along it.
-/

namespace SearchIndex

/-- The field is not compound, declares no type, and may not be inferred. -/
def Field.isUntypable (f : Field) : Bool :=
  f.nested.isNone && f.declaredType?.isNone && !f.inference

/-- The field at the site is not compound, declares no type, and may not be inferred. -/
def Site.isUntypable (s : Site) : Bool := s.field.isUntypable

/-- The path that an issue is about, if it is about a field. -/
def Issue.path? : Issue → Option String
  | .withoutFields => none
  | .untyped path => some path

/-- A path is reported exactly if an issue is about it. -/
theorem Issue.mem_filterMap_path? {issues : List Issue} {p : String} :
    p ∈ issues.filterMap path? ↔ .untyped p ∈ issues := by
  rw [List.mem_filterMap]
  constructor
  · rintro ⟨issue, hissue, hpath⟩
    cases issue with
    | withoutFields => cases hpath
    | untyped path =>
      obtain rfl : path = p := Option.some.inj hpath
      exact hissue
  · intro h
    exact ⟨.untyped p, h, rfl⟩

namespace Definition

/-- Whether a path leads to a field that can have no type. -/
def untypableAt (d : Definition) (p : String) : Bool := (d.find? p).any Field.isUntypable

/-- The main targets answer: wherever a field is found that is not compound, declares no type
and may be inferred, the definition that directly holds it has a main target, whose inference
succeeds for the field. -/
def Inferable (d : Definition) : Prop :=
  ∀ p f, d.find? p = some f → f.nested = none → f.declaredType? = none → f.inference = true →
    ∃ owner target options, d.within? (Path.segments p).dropLast = some owner ∧
      owner.mainIndexable? = some target ∧ target.infer f.name = .ok options

end Definition

/-! ### The check along the sites -/

/-- A field without fields inside is reported if it can have no type. -/
theorem Field.issues_of_plain {f : Field} (hn : f.nested = none) (outer : String) :
    f.issues outer = if f.isUntypable then [.untyped (outer ++ f.name)] else [] := by
  obtain ⟨name, options, inference, nested⟩ := f
  subst hn
  rfl

/-- A compound field is checked by what is inside it, behind its name and a dot. -/
theorem Field.issues_of_nested {f : Field} {inner : Definition} (hn : f.nested = some inner)
    (outer : String) : f.issues outer = inner.fieldIssues (outer ++ f.name ++ ".") := by
  obtain ⟨name, options, inference, nested⟩ := f
  subst hn
  rfl

/-- The fields of a list are checked one after the other. -/
theorem Field.issuesOf_eq_flatMap (outer : String) (fields : List Field) :
    Field.issuesOf outer fields = fields.flatMap (Field.issues outer) := by
  induction fields with
  | nil => rfl
  | cons f rest ih => rw [Field.issuesOf, ih, List.flatMap_cons]

namespace Definition

variable {d : Definition} {s : Site}

/-- The check of a definition is that of its fields. -/
theorem fieldIssues_eq_flatMap (d : Definition) (outer : String) :
    d.fieldIssues outer = d.fields.flatMap (Field.issues outer) := by
  obtain ⟨targets, mode, fields, options⟩ := d
  exact Field.issuesOf_eq_flatMap outer fields

/-- **The issues are the sites that can have no type**, each under its path behind the text
that the check has come with. -/
theorem fieldIssues_eq_map_sites (d : Definition) (outer : String) :
    d.fieldIssues outer = (d.sites.filter Site.isUntypable).map
      fun s => .untyped (outer ++ Path.ofSegments s.path) := by
  induction d using Definition.induction generalizing outer with
  | step d ih =>
    rw [fieldIssues_eq_flatMap, sites_eq_flatMap, List.filter_flatMap, List.map_flatMap,
      List.flatMap_def, List.flatMap_def]
    congr 1
    -- field by field, as both lists are made of what the fields contribute
    refine List.map_congr_left fun f hf => ?_
    rw [Field.sites_eq]
    cases hn : f.nested with
    | none =>
      -- the field is its only site, and its path is its name
      rw [Field.issues_of_plain hn, Field.sitesInside_of_plain hn, List.filter_singleton,
        Site.isUntypable]
      cases f.isUntypable <;> rfl
    | some inner =>
      -- the field itself is never at fault, and the text grows by its name and a dot, as the
      -- paths of the sites inside do
      have hfine : f.isUntypable = false := by simp [Field.isUntypable, hn]
      have htext : ∀ t : Site, outer ++ f.name ++ "." ++ Path.ofSegments t.path =
          outer ++ Path.ofSegments (t.below f.name).path := fun t => by
        rw [Site.path_below, Path.ofSegments_cons f.name t.path_ne_nil, Path.join,
          String.append_assoc, String.append_assoc, String.append_assoc]
      rw [Field.issues_of_nested hn, ih f hf inner hn, Field.sitesInside_of_nested hn,
        List.filter_cons_of_neg (by simp [Site.isUntypable, hfine]), List.filter_map, List.map_map]
      exact List.map_congr_left fun t _ => congrArg Issue.untyped (htext t)

/-- The path of a site leads to its field. -/
theorem find?_of_mem_sites (hd : d.Distinct) (hdot : d.DotFree) (hs : s ∈ d.sites) :
    d.find? (Path.ofSegments s.path) = some s.field :=
  (find?_eq_some_iff hd).mpr ⟨s, hs, (segments_path hdot hs).symm, rfl⟩

/-- The paths that lead to a field without a type, among those of the sites. -/
theorem filter_untypableAt (hd : d.Distinct) (hdot : d.DotFree) :
    d.expandedNames.filter d.untypableAt =
      (d.sites.filter Site.isUntypable).map fun s => Path.ofSegments s.path := by
  rw [expandedNames_eq_map_sites, List.filter_map]
  -- looking up the path of a site finds the field that the check looks at
  have hsame : ∀ s ∈ d.sites,
      (d.untypableAt ∘ fun s => Path.ofSegments s.path) s = s.isUntypable := by
    intro s hs
    rw [Function.comp_apply, untypableAt, find?_of_mem_sites hd hdot hs, Option.any_some,
      Site.isUntypable]
  rw [List.filter_congr hsame]

/-- The check reports what can have no type. -/
theorem lint_eq (hd : d.Distinct) (hdot : d.DotFree) :
    d.lint = (if d.fields.isEmpty then [.withoutFields] else []) ++
      (d.expandedNames.filter d.untypableAt).map .untyped := by
  -- the check begins with an empty text, so that the paths stand alone
  have hempty : ∀ s : Site, "" ++ Path.ofSegments s.path = Path.ofSegments s.path :=
    fun s => String.empty_append
  rw [lint, fieldIssues_eq_map_sites, filter_untypableAt hd hdot, List.map_map]
  simp only [hempty]
  rfl

/-- The paths that the check reports, in order. -/
theorem filterMap_path?_lint (hd : d.Distinct) (hdot : d.DotFree) :
    d.lint.filterMap Issue.path? =
      (d.sites.filter Site.isUntypable).map fun s => Path.ofSegments s.path := by
  -- the issue of an empty definition is about no field
  have hfirst : (if d.fields.isEmpty then [Issue.withoutFields] else []).filterMap Issue.path? =
      [] := by
    split <;> rfl
  have hrest : Issue.path? ∘ Issue.untyped = some := rfl
  rw [lint_eq hd hdot, List.filterMap_append, hfirst, List.nil_append, List.filterMap_map, hrest,
    List.filterMap_some, filter_untypableAt hd hdot]

/-- The check reports a path exactly if some field can have no type. -/
theorem exists_untyped_mem_lint_iff (hd : d.Distinct) (hdot : d.DotFree) :
    (∃ p, .untyped p ∈ d.lint) ↔ ∃ s ∈ d.sites, s.isUntypable := by
  simp only [← Issue.mem_filterMap_path?, filterMap_path?_lint hd hdot, List.mem_map,
    List.mem_filter]
  constructor
  · rintro ⟨-, s, hs, -⟩
    exact ⟨s, hs⟩
  · rintro ⟨s, hs⟩
    exact ⟨_, s, hs, rfl⟩

end Definition

/-! ### The mapping along the sites -/

namespace Site

variable {s : Site}

/-- A field that can have no type fails, and not because of its target. -/
theorem failure?_of_isUntypable (h : s.isUntypable) :
    s.failure? = some (.mapping s.field.name .inferenceDisabled) := by
  obtain ⟨⟨hn, ht⟩, hi⟩ : (s.field.nested = none ∧ s.field.declaredType? = none) ∧
      s.field.inference = false := by
    simpa [isUntypable, Field.isUntypable] using h
  rw [failure?_eq_some_iff, Field.mapping_of_plain hn, Field.ownMapping_of_plain _ ht hn, hi]
  exact ⟨hn, rfl⟩

end Site

namespace Definition

variable {d : Definition} {s : Site}

/-- A field that can have no type makes the whole mapping fail. -/
theorem exists_mapping_eq_error (hs : s ∈ d.sites) (huntypable : s.isUntypable) :
    ∃ e, d.mapping = .error e := by
  -- the site itself has a failure, so the search along the sites finds one
  have hfailure : (s.failure?).isSome := by
    rw [Site.failure?_of_isUntypable huntypable]
    rfl
  obtain ⟨e, he⟩ :=
    Option.isSome_iff_exists.mp (List.findSome?_isSome_iff.mpr ⟨s, hs, hfailure⟩)
  exact ⟨e, mapping_eq_error_iff.mpr he⟩

/-- Being inferable is a matter of each site: its owner has a target that answers. -/
theorem inferable_iff (hd : d.Distinct) (hdot : d.DotFree) :
    d.Inferable ↔ ∀ s ∈ d.sites, s.field.nested = none → s.field.declaredType? = none →
      s.field.inference = true → ∃ target options,
        s.owner.mainIndexable? = some target ∧ target.infer s.field.name = .ok options := by
  constructor
  · intro h s hs hn ht hi
    obtain ⟨owner, target, options, howner, hanswer⟩ :=
      h _ _ (find?_of_mem_sites hd hdot hs) hn ht hi
    -- the names in front of the last lead to the owner of the site
    rw [segments_path hdot hs, Site.dropLast_path, ((mem_sites_iff hd).mp hs).1] at howner
    obtain rfl : s.owner = owner := Option.some.inj howner
    exact ⟨target, options, hanswer⟩
  · intro h p f hf hn ht hi
    obtain ⟨s, hs, hpath, rfl⟩ := (find?_eq_some_iff hd).mp hf
    obtain ⟨target, options, hanswer⟩ := h s hs hn ht hi
    have howner : d.within? (Path.segments p).dropLast = some s.owner := by
      rw [← hpath, Site.dropLast_path]
      exact ((mem_sites_iff hd).mp hs).1
    exact ⟨s.owner, target, options, howner, hanswer⟩

/-- Where the main targets answer, only a field that can have no type fails. -/
theorem Inferable.failure?_eq (h : d.Inferable) (hd : d.Distinct) (hdot : d.DotFree)
    (hs : s ∈ d.sites) :
    s.failure? = (Option.guard Site.isUntypable s).map
      fun s => .mapping s.field.name .inferenceDisabled := by
  by_cases huntypable : s.isUntypable
  · -- the field can have no type, and that is its failure
    rw [Site.failure?_of_isUntypable huntypable, Option.guard_pos huntypable]
    rfl
  · -- any other field has none, for a failure would have to have a cause
    rw [Option.guard_eq_none_iff.mpr (eq_false_of_ne_true huntypable), Option.map_none]
    -- its failure would come from an inference, and that goes well
    by_contra hfails
    obtain ⟨e, he⟩ := Option.ne_none_iff_exists'.mp hfails
    obtain ⟨hn, ht, hcause⟩ := Site.unresolvable_iff.mpr ⟨e, he⟩
    have hinference : s.field.inference = true := by
      simpa [Site.isUntypable, Field.isUntypable, hn, ht] using huntypable
    obtain ⟨target, options, hmain, hanswer⟩ :=
      (inferable_iff hd hdot).mp h s hs hn ht hinference
    -- inference is enabled, there is a target to ask, and it answers
    rcases hcause with hdisabled | hnone | ⟨other, e', hother, hfail⟩
    · rw [hinference] at hdisabled
      cases hdisabled
    · rw [hmain] at hnone
      cases hnone
    · rw [hmain] at hother
      obtain rfl : target = other := Option.some.inj hother
      rw [hanswer] at hfail
      cases hfail

/-- Where the main targets answer, the mapping fails with the first site that can have no
type. -/
theorem Inferable.mapping_eq_error_iff (h : d.Inferable) (hd : d.Distinct) (hdot : d.DotFree)
    {e : Error} :
    d.mapping = .error e ↔ ∃ s, (d.sites.filter Site.isUntypable).head? = some s ∧
      e = .mapping s.field.name .inferenceDisabled := by
  -- the failures are those of the sites that can have no type, in their order
  have hfailures : d.sites.filterMap Site.failure? =
      (d.sites.filter Site.isUntypable).map
        fun s => .mapping s.field.name .inferenceDisabled := by
    rw [List.filterMap_congr fun s hs => h.failure?_eq hd hdot hs, ← List.map_filterMap,
      List.filterMap_eq_filter]
  rw [Definition.mapping_eq_error_iff, ← List.head?_filterMap, hfailures, List.head?_map]
  simp only [Option.map_eq_some_iff, eq_comm (b := e)]

end Definition

/-! ### The check and the mapping -/

namespace Draft

open Definition

/-- **What the check reports of fields is what must make the mapping fail.** For the contents
of every draft whose names hold no dot:

* the issues about fields are, in order, the expanded names at which a field can have no type;
* with such an issue the mapping fails;
* where the main targets answer for what is inferred, the mapping fails only with such an
  issue, and its error names the field at the first path that is reported. -/
theorem lint_foretells_mapping (d : Draft) (built : d.Built) (dotFree : d.contents.DotFree) :
    d.contents.lint = (if d.contents.fields.isEmpty then [.withoutFields] else []) ++
      (d.contents.expandedNames.filter d.contents.untypableAt).map .untyped ∧
    ((∃ p, .untyped p ∈ d.contents.lint) → ∃ e, d.contents.mapping = .error e) ∧
    (d.contents.Inferable →
      ((∃ e, d.contents.mapping = .error e) ↔ ∃ p, .untyped p ∈ d.contents.lint) ∧
      ∀ e, d.contents.mapping = .error e → ∃ p name,
        (d.contents.lint.filterMap Issue.path?).head? = some p ∧
        (Path.segments p).getLast? = some name ∧ e = .mapping name .inferenceDisabled) := by
  have hd : d.contents.Distinct := Definition.Frozen.distinct built
  have hissue := exists_untyped_mem_lint_iff hd dotFree
  have hfails : (∃ p, .untyped p ∈ d.contents.lint) → ∃ e, d.contents.mapping = .error e := by
    intro h
    obtain ⟨s, hs, huntypable⟩ := hissue.mp h
    exact exists_mapping_eq_error hs huntypable
  refine ⟨lint_eq hd dotFree, hfails, fun inferable => ⟨⟨?_, hfails⟩, ?_⟩⟩
  · -- a mapping that fails has a first failure, and the check reports it
    rintro ⟨e, he⟩
    obtain ⟨s, hfirst, -⟩ := (inferable.mapping_eq_error_iff hd dotFree).mp he
    exact hissue.mpr ⟨s, List.mem_filter.mp (List.mem_of_head? hfirst)⟩
  · -- the site that decides the error is the first one that the check reports
    intro e he
    obtain ⟨s, hfirst, rfl⟩ := (inferable.mapping_eq_error_iff hd dotFree).mp he
    have hs : s ∈ d.contents.sites := (List.mem_filter.mp (List.mem_of_head? hfirst)).1
    refine ⟨Path.ofSegments s.path, s.field.name, ?_, ?_, rfl⟩
    · -- the paths reported are those of the sites, so the first is that of this site
      rw [filterMap_path?_lint hd dotFree, List.head?_map, hfirst]
      rfl
    · rw [segments_path dotFree hs, Site.getLast?_path]

/-- A field that declares nothing and may not be inferred. -/
def silent (name : String) : Field := ⟨name, .empty, false, none⟩

/-- The shelves of a store. Nobody has said what a row is. -/
def shelves : Draft :=
  (Draft.mk ⟨[knows "Shelf" "code" "keyword"], some .index, [], .empty⟩).registerAll
    [.inferred "code", silent "row"]

/-- A store with its shelves. Nobody has said what a note is, either. -/
def store : Draft :=
  (Draft.mk ⟨[knows "Store" "name" "text"], some .index, [], .empty⟩).registerAll
    [.inferred "name", ⟨"shelves", .empty, false, some shelves.freeze⟩, silent "note"]

/-- The store and its shelves come out of drafts. -/
theorem store_built : store.Built := by
  have hshelves : shelves.Built :=
    (Draft.Built.ofTargets rfl).registerAll (by simp [Field.inferred, silent])
  exact (Draft.Built.ofTargets rfl).registerAll
    (by simpa [Field.inferred, silent] using hshelves.freeze)

/-- No name in the store holds a dot. -/
theorem store_dotFree : store.contents.DotFree := by
  have hshelves : shelves.freeze.DotFree :=
    .of_fields [.inferred "code", silent "row"] rfl (by decide) (by simp [Field.inferred, silent])
  exact .of_fields
    [.inferred "name", ⟨"shelves", .empty, false, some shelves.freeze⟩, silent "note"] rfl
    (by decide) (by simpa [DotFree, Field.inferred, silent] using hshelves)

/-- Both fields of the store that are inferred have a target that knows them. -/
theorem store_inferable : store.contents.Inferable := by
  -- there are five sites to look at
  refine (inferable_iff (Definition.Frozen.distinct store_built) store_dotFree).mpr ?_
  intro s hs hn ht hi
  have hsite : s ∈
      [⟨[], store.contents, .inferred "name"⟩,
        ⟨[], store.contents, ⟨"shelves", .empty, false, some shelves.freeze⟩⟩,
        ⟨["shelves"], shelves.freeze, .inferred "code"⟩,
        ⟨["shelves"], shelves.freeze, silent "row"⟩,
        ⟨[], store.contents, silent "note"⟩] := hs
  simp only [List.mem_cons, List.not_mem_nil, or_false] at hsite
  -- two fields are inferred, each by the target of its own definition
  obtain rfl | rfl | rfl | rfl | rfl := hsite
  · exact ⟨_, _, rfl, rfl⟩
  · cases hi
  · exact ⟨_, _, rfl, rfl⟩
  · cases hi
  · cases hi

/-- The check finds both fields, and the mapping fails with the first of them. -/
theorem store_lint : store.Built ∧ store.contents.DotFree ∧ store.contents.Inferable ∧
    store.contents.lint = [.untyped "shelves.row", .untyped "note"] ∧
    ∃ p name, (store.contents.lint.filterMap Issue.path?).head? = some p ∧
      (Path.segments p).getLast? = some name ∧
      store.contents.mapping = .error (.mapping name .inferenceDisabled) := by
  obtain ⟨hlint, hfails, hfirst⟩ := lint_foretells_mapping store store_built store_dotFree
  have hissues : store.contents.lint = [.untyped "shelves.row", .untyped "note"] := by
    rw [hlint]
    decide
  obtain ⟨e, he⟩ := hfails ⟨"note", hissues ▸ by simp⟩
  obtain ⟨p, name, hp, hname, rfl⟩ := (hfirst store_inferable).2 e he
  exact ⟨store_built, store_dotFree, store_inferable, hissues, p, name, hp, hname, he⟩

end Draft

end SearchIndex
