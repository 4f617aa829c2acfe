import SearchIndex.Definition.Mapping
import SearchIndex.Proofs.Definition.Session
import SearchIndex.Proofs.Outcome.Traversal
import SearchIndex.Proofs.Table.Record

/-!
# Fields throughout a session

Fields may be registered as often as one likes, under names that come back in any pattern. A
definition remembers two things of this: which name came first, and what was last registered
under it. `Draft.registry_ofSession` says so by way of tables. The fields under their names are
the table that the registrations build, and what such a table keeps is known (`Table.Records`).

Two registrations under different names do not get into the way of each other, so it does not
matter in which order they are made, except for the order in which the fields are listed.
`Definition.Reordered` is what is left in common. It holds where two neighbouring registrations
have been exchanged (`Draft.reordered_register`), every operation of a session keeps it
(`Definition.Reordered.after_call`), and it is enough to find the same fields at the same paths
and to be resolved to the same fragments (`Definition.Reordered.find?_eq`,
`Definition.Reordered.exists_mapping`). Which error is reported may depend on the order, as the
first field that fails decides; whether there is one may not.

`Draft.session_fields` puts both together.
-/

namespace SearchIndex

open scoped List

/-! ### What is left of the registrations -/

/-- The fields of a definition as a table under their names. -/
def Definition.registry (d : Definition) : Table Field := ⟨d.fields.map fun f => (f.name, f)⟩

theorem Definition.keys_registry (d : Definition) : d.registry.keys = d.names := by
  rw [Table.keys, registry, List.map_map]
  rfl

/-- A field is in the table under its own name, if it is a field of the definition. -/
theorem Definition.mem_entries_registry {d : Definition} {f : Field} :
    (f.name, f) ∈ d.registry.entries ↔ f ∈ d.fields := by
  simp [registry]

namespace Draft

/-- The field that an operation registers. -/
def Operation.registered? : Operation → Option Field
  | .register f => some f
  | _ => none

/-- The fields that are registered in a session, one after the other. -/
def registered (operations : List Operation) : List Field :=
  operations.filterMap Operation.registered?

/-- Registering a field is writing it into the table under its name. -/
theorem registry_register (d : Draft) (f : Field) :
    (d.register f).contents.registry = d.contents.registry.insert f.name f := by
  rw [Definition.registry, fields_register, Definition.registry, Table.insert, Table.mk.injEq]
  -- along the fields, in step with the entries of the table
  induction d.contents.fields with
  | nil => rfl
  | cons g rest ih =>
    rw [registerIn, List.map_cons, Table.insertEntry, ← ih]
    split <;> rfl

/-- An assignment of targets leaves the fields alone, whether it is accepted or not. -/
theorem fields_assignTargets (d : Draft) (targets : List Target) :
    ((assignTargets targets).after d).contents.fields = d.contents.fields := by
  -- refused, the list changes nothing; accepted, it takes the place of the targets only
  rcases (assignTargets_performs targets).after_eq (s := d) with hsame | hset
  · rw [hsame]
  · obtain ⟨mode, -, hafter⟩ := setTargets_eq_ok_iff.mp hset
    rw [hafter]

/-- A session may be cut anywhere. -/
theorem ofSession_append (before after : List Operation) :
    ofSession (before ++ after) = Call.afterAll (after.map Operation.call) (ofSession before) := by
  rw [ofSession, List.map_append, Call.afterAll, List.foldl_append]
  rfl

theorem ofSession_append_singleton (operations : List Operation) (op : Operation) :
    ofSession (operations ++ [op]) = op.call.after (ofSession operations) :=
  ofSession_append operations [op]

/-- **The fields after a session** are the table that the registrations build. -/
theorem registry_ofSession (operations : List Operation) :
    (ofSession operations).contents.registry =
      Table.ofList ((registered operations).map fun f => (f.name, f)) := by
  -- from the end of the session, where the last operation has been made on all that is before
  induction operations using List.reverseRecOn with
  | nil => rfl
  | append_singleton operations op ih =>
    rw [ofSession_append_singleton, registered, List.filterMap_append, List.map_append,
      ← registered]
    cases op with
    | setTargets targets =>
      -- targets and options leave the table as it is
      have hsame := fields_assignTargets (ofSession operations) targets
      rw [Operation.call, Definition.registry, hsame, ← Definition.registry, ih]
      exact congrArg Table.ofList (List.append_nil _).symm
    | register f =>
      show ((ofSession operations).register f).contents.registry = _
      rw [registry_register, ih, ← Table.ofList_append_singleton _ (f.name, f)]
      rfl
    | changeOptions change =>
      show (ofSession operations).contents.registry = _
      rw [ih]
      exact congrArg Table.ofList (List.append_nil _).symm

/-- The fields of a session are what the registrations have left behind. -/
theorem records_registry (operations : List Operation) :
    (ofSession operations).contents.registry.Records
      ((registered operations).map fun f => (f.name, f)) := by
  rw [registry_ofSession]
  exact Table.records_ofList _

/-- No name is listed twice after a session. -/
theorem nodup_names_ofSession (operations : List Operation) :
    (ofSession operations).contents.names.Nodup := by
  rw [← Definition.keys_registry]
  exact (records_registry operations).distinct

/-- The last of some fields to be registered under its name, as an entry of a table. -/
theorem isLast_registered_iff {fields : List Field} {f : Field} :
    Table.IsLast (fields.map fun f => (f.name, f)) f.name f ↔
      ∃ before after, fields = before ++ f :: after ∧ f.name ∉ after.map Field.name := by
  -- the names of the entries are those of the fields
  have hnames : ∀ after : List Field,
      (after.map fun f => (f.name, f)).map Prod.fst = after.map Field.name := by
    intro after
    rw [List.map_map]
    rfl
  constructor
  · rintro ⟨before, after, hsplit, hlast⟩
    -- a split of the entries comes from a split of the fields
    obtain ⟨earlier, rest, rfl, -, hrest⟩ := List.map_eq_append_iff.mp hsplit
    obtain ⟨g, later, rfl, hg, rfl⟩ := List.map_eq_cons_iff.mp hrest
    obtain rfl : g = f := congrArg Prod.snd hg
    exact ⟨earlier, later, rfl, hnames later ▸ hlast⟩
  · rintro ⟨earlier, later, rfl, hlast⟩
    refine ⟨earlier.map fun f => (f.name, f), later.map fun f => (f.name, f), ?_, ?_⟩
    · rw [List.map_append, List.map_cons]
    · rw [hnames later]
      exact hlast

/-- **The fields of a session** are those that have been registered last under their names. -/
theorem mem_fields_ofSession_iff {operations : List Operation} {f : Field} :
    f ∈ (ofSession operations).contents.fields ↔
      ∃ before after, registered operations = before ++ f :: after ∧
        f.name ∉ after.map Field.name := by
  rw [← Definition.mem_entries_registry, (records_registry operations).mem_entries_iff,
    isLast_registered_iff]

/-- The names stand in the order in which they have been registered first. -/
theorem names_ofSession (operations : List Operation) :
    (ofSession operations).contents.names =
      ((registered operations).map Field.name).eraseDups := by
  rw [← Definition.keys_registry, (records_registry operations).keys_eq, List.map_map]
  rfl

end Draft

/-! ### What the order of registrations decides -/

/-- The fragments of a list of fields are resolved one after the other. -/
theorem Field.propertiesOf_eq_mapM (main : Option Indexable) (fields : List Field) :
    Field.propertiesOf main fields = fields.mapM fun f =>
      (f.mapping main).map fun fragment => (f.name, Json.object fragment) := by
  induction fields with
  | nil => rfl
  | cons f rest ih => rw [propertiesOf_cons, Outcome.mapM_cons, ← ih, Outcome.bind_map]

/-- Two definitions differ in the order of their fields at most, and no name is listed twice. -/
structure Definition.Reordered (d d' : Definition) : Prop where
  targets_eq : d.targets = d'.targets
  mode_eq : d.mode = d'.mode
  options_eq : d.options = d'.options
  fields_perm : d.fields ~ d'.fields
  distinct : d.names.Nodup

/-- Two mapping documents have the same fragments under the same names, in whatever order. -/
def Document.SameFragments (m m' : Document) : Prop :=
  ∃ properties properties' : Document, properties.entries ~ properties'.entries ∧
    m = Table.empty.insert "properties" (.object properties) ∧
    m' = Table.empty.insert "properties" (.object properties')

namespace Draft

/-- Up to the order, registering a field takes those of its name out and adds it. -/
theorem registerIn_perm {f : Field} {fields : List Field} (h : (fields.map Field.name).Nodup) :
    registerIn f fields ~ f :: fields.filter fun g => g.name ≠ f.name := by
  induction fields with
  | nil => exact .refl _
  | cons g rest ih =>
    -- the name is there once, as names are distinct
    obtain ⟨hnew, hrest⟩ := List.nodup_cons.mp h
    rw [registerIn]
    by_cases hname : g.name = f.name
    · -- the others have other names and stay
      have hothers : ∀ k ∈ rest, decide (k.name ≠ f.name) = true := by
        intro k hk
        refine decide_eq_true fun hsame => hnew ?_
        rw [hname, ← hsame]
        exact List.mem_map_of_mem hk
      rw [if_pos hname, List.filter_cons_of_neg (by simpa using hname),
        List.filter_eq_self.mpr hothers]
    · -- the field of that name stands further behind, and this one stays in front of it
      rw [if_neg hname, List.filter_cons_of_pos (by simpa using hname)]
      exact ((ih hrest).cons g).trans (.swap f g _)

/-- Two fields of different names come to the same, whichever is registered first. -/
theorem registerIn_registerIn_perm {f g : Field} {fields : List Field} (hne : f.name ≠ g.name)
    (h : (fields.map Field.name).Nodup) :
    registerIn g (registerIn f fields) ~ registerIn f (registerIn g fields) := by
  have hboth : ∀ f g : Field, f.name ≠ g.name → registerIn g (registerIn f fields) ~
      g :: f :: (fields.filter fun k => k.name ≠ f.name).filter fun k => k.name ≠ g.name := by
    intro f g hne
    -- of each name only the field just registered is left
    have hfirst := registerIn_perm (f := f) h
    have hsecond := registerIn_perm (f := g) (nodup_names_registerIn f h)
    have hkept := hfirst.filter fun k => decide (k.name ≠ g.name)
    rw [List.filter_cons_of_pos (by simpa using hne)] at hkept
    exact hsecond.trans (hkept.cons g)
  have hother := hboth g f hne.symm
  rw [List.filter_comm] at hother
  exact (hboth f g hne).trans ((List.Perm.swap f g _).trans hother.symm)

/-- Two registrations of different names may be exchanged. -/
theorem reordered_register (d : Draft) {f g : Field} (hne : f.name ≠ g.name)
    (h : d.contents.names.Nodup) :
    ((d.register f).register g).contents.Reordered ((d.register g).register f).contents where
  targets_eq := rfl
  mode_eq := rfl
  options_eq := rfl
  fields_perm := registerIn_registerIn_perm hne h
  distinct := nodup_names_registerIn g (nodup_names_registerIn f h)

end Draft

namespace Definition.Reordered

variable {d d' : Definition}

theorem names_perm (h : d.Reordered d') : d.names ~ d'.names := h.fields_perm.map Field.name

/-- The relation goes both ways. -/
theorem symm (h : d.Reordered d') : d'.Reordered d where
  targets_eq := h.targets_eq.symm
  mode_eq := h.mode_eq.symm
  options_eq := h.options_eq.symm
  fields_perm := h.fields_perm.symm
  distinct := h.names_perm.nodup_iff.mp h.distinct

/-- A name finds the same field. -/
theorem field?_eq (h : d.Reordered d') (name : String) : d.field? name = d'.field? name := by
  -- found on one side, the field is found on the other, where names are distinct as well
  have hfound : ∀ {e e' : Definition}, e.Reordered e' → ∀ f, e.field? name = some f →
      e'.field? name = some f := by
    intro e e' he f hf
    obtain rfl := name_of_field? hf
    exact field?_of_mem he.symm.distinct (he.fields_perm.subset (mem_fields_of_field? hf))
  exact Option.ext fun f => ⟨hfound h f, hfound h.symm f⟩

/-- **A path leads to the same field.** Only the first of its names is looked up here. -/
theorem find?_eq (h : d.Reordered d') (path : String) : d.find? path = d'.find? path := by
  rw [find?, find?]
  obtain ⟨name, rest, hpath⟩ := List.exists_cons_of_ne_nil (Path.segments_ne_nil path)
  rw [hpath]
  -- the fields inside the first one are the same, in the same order
  cases rest with
  | nil => exact h.field?_eq name
  | cons next more => rw [findSegments?, findSegments?, h.field?_eq name] <;> simp

theorem mainIndexable?_eq (h : d.Reordered d') : d.mainIndexable? = d'.mainIndexable? := by
  rw [mainIndexable?, mainIndexable?, h.targets_eq]

/-- **A mapping that can be resolved stays so**, with the same fragments in another order. -/
theorem exists_mapping (h : d.Reordered d') {m : Document} (hm : d.mapping = .ok m) :
    ∃ m', d'.mapping = .ok m' ∧ m.SameFragments m' := by
  -- the mapping is there, so all fields have been resolved
  obtain ⟨properties, hproperties, rfl⟩ := Outcome.map_eq_ok_iff.mp hm
  rw [properties_eq] at hproperties
  obtain ⟨entries, hentries, rfl⟩ := Outcome.map_eq_ok_iff.mp hproperties
  rw [Field.propertiesOf_eq_mapM] at hentries
  -- the same fields are resolved in the other order
  obtain ⟨entries', hentries', hperm⟩ := Outcome.exists_mapM_of_perm h.fields_perm hentries
  rw [h.mainIndexable?_eq, ← Field.propertiesOf_eq_mapM] at hentries'
  refine ⟨_, ?_, ⟨entries⟩, ⟨entries'⟩, hperm, rfl, rfl⟩
  rw [mapping, properties_eq, hentries']
  rfl

/-- An operation on drafts that differ in the order of fields leaves such drafts. -/
theorem after_call {d d' : Draft} (h : d.contents.Reordered d'.contents) (op : Draft.Operation) :
    (op.call.after d).contents.Reordered (op.call.after d').contents := by
  cases op with
  | setTargets targets =>
    have hperforms := Draft.assignTargets_performs targets
    rw [Draft.Operation.call]
    -- whether the list is accepted does not depend on the draft
    cases hmode : Target.commonMode targets with
    | ok mode =>
      -- accepted by both, with the same targets and mode
      have hset : ∀ d : Draft, d.setTargets targets =
          .ok ⟨{ d.contents with targets := targets, mode := some mode }⟩ :=
        fun d => Draft.setTargets_eq_ok_iff.mpr ⟨mode, hmode, rfl⟩
      rw [(hperforms.of_ok (hset d)).2, (hperforms.of_ok (hset d')).2]
      exact ⟨rfl, rfl, h.options_eq, h.fields_perm, h.distinct⟩
    | error e =>
      -- refused by both, which stay as they are
      have hset : ∀ d : Draft, d.setTargets targets = .error e := by
        intro d
        rw [Draft.setTargets, hmode]
        rfl
      rw [(hperforms.of_error (hset d)).2, (hperforms.of_error (hset d')).2]
      exact h
  | register f =>
    refine ⟨h.targets_eq, h.mode_eq, h.options_eq, ?_, Draft.nodup_names_registerIn f h.distinct⟩
    have hrest := h.fields_perm.filter fun g => decide (g.name ≠ f.name)
    have hleft := Draft.registerIn_perm (f := f) h.distinct
    have hright := Draft.registerIn_perm (f := f) h.symm.distinct
    exact hleft.trans ((hrest.cons f).trans hright.symm)
  | changeOptions change =>
    exact ⟨h.targets_eq, h.mode_eq, congrArg change h.options_eq, h.fields_perm, h.distinct⟩

/-- **What two drafts have in common a session keeps.** -/
theorem afterAll {d d' : Draft} (h : d.contents.Reordered d'.contents)
    (operations : List Draft.Operation) :
    (Call.afterAll (operations.map Draft.Operation.call) d).contents.Reordered
      (Call.afterAll (operations.map Draft.Operation.call) d').contents := by
  induction operations generalizing d d' with
  | nil => exact h
  | cons op rest ih => exact ih (h.after_call op)

end Definition.Reordered

namespace Draft

/-- Two registrations exchanged within a session leave the same fields in another order. -/
theorem reordered_ofSession (before after : List Operation) {f g : Field}
    (hne : f.name ≠ g.name) :
    (ofSession (before ++ .register f :: .register g :: after)).contents.Reordered
      (ofSession (before ++ .register g :: .register f :: after)).contents := by
  rw [ofSession_append, ofSession_append]
  exact (reordered_register _ hne (nodup_names_ofSession before)).afterAll after

/-- **The fields of a session.** Each name that has been registered is listed once, in the order
of the first registrations, and the field under it is the one that was registered last, as it was
given. If two neighbouring registrations of different names are exchanged, the definitions differ
in the order of their fields at most: the same fields are found at the same paths, the mapping can
be resolved in both cases or in neither, and it has the same fragments under the same names. -/
theorem session_fields :
    (∀ operations : List Operation,
      (ofSession operations).contents.names =
          ((registered operations).map Field.name).eraseDups ∧
      (ofSession operations).contents.names.Nodup ∧
      ∀ f, f ∈ (ofSession operations).contents.fields ↔
        ∃ before after, registered operations = before ++ f :: after ∧
          f.name ∉ after.map Field.name) ∧
    ∀ (before after : List Operation) (f g : Field), f.name ≠ g.name →
      let d := (ofSession (before ++ .register f :: .register g :: after)).contents
      let d' := (ofSession (before ++ .register g :: .register f :: after)).contents
      d.Reordered d' ∧ (∀ path, d.find? path = d'.find? path) ∧
        ((∃ m, d.mapping = .ok m) ↔ ∃ m', d'.mapping = .ok m') ∧
        ∀ m m', d.mapping = .ok m → d'.mapping = .ok m' → m.SameFragments m' := by
  refine ⟨fun operations => ⟨names_ofSession operations, nodup_names_ofSession operations,
    fun f => mem_fields_ofSession_iff⟩, ?_⟩
  intro before after f g hne d d'
  have h : d.Reordered d' := reordered_ofSession before after hne
  refine ⟨h, h.find?_eq, ⟨?_, ?_⟩, fun m m' hm hm' => ?_⟩
  · -- both mappings are there or none, by the relation and its inverse
    rintro ⟨m, hm⟩
    obtain ⟨m', hm', -⟩ := h.exists_mapping hm
    exact ⟨m', hm'⟩
  · rintro ⟨m', hm'⟩
    obtain ⟨m, hm, -⟩ := h.symm.exists_mapping hm'
    exact ⟨m, hm⟩
  · -- if both are there, they have the fragments of the same fields
    obtain ⟨k, hk, hsame⟩ := h.exists_mapping hm
    rwa [Except.ok.inj (hm'.symm.trans hk)]

/-- A session in which the title is registered first and, with another type, last. -/
def novel (first second : Field) : List Operation :=
  [.register (.typed "title" "text"), .register first, .register second,
    .register (.typed "title" "keyword")]

/-- The title keeps its place and gets the type it was given last; the two fields in between stand
in either order, with the same mapping up to that. -/
theorem novel_fields :
    let pages := Field.typed "pages" "integer"
    let author := Field.typed "author" "keyword"
    let d := (ofSession (novel pages author)).contents
    let d' := (ofSession (novel author pages)).contents
    d.names = ["title", "pages", "author"] ∧ d'.names = ["title", "author", "pages"] ∧
      .typed "title" "keyword" ∈ d.fields ∧
      ∃ m m', d.mapping = .ok m ∧ d'.mapping = .ok m' ∧ m.SameFragments m' := by
  intro pages author d d'
  obtain ⟨hsession, hexchange⟩ := session_fields
  have hne : pages.name ≠ author.name := by decide
  obtain ⟨-, -, -, hmapping⟩ := hexchange [.register (.typed "title" "text")]
    [.register (.typed "title" "keyword")] pages author hne
  obtain ⟨hnames, -, hlast⟩ := hsession (novel pages author)
  obtain ⟨hnames', -, -⟩ := hsession (novel author pages)
  refine ⟨hnames, hnames', ?_, _, _, rfl, rfl, hmapping _ _ rfl rfl⟩
  exact (hlast _).mpr ⟨[.typed "title" "text", pages, author], [], rfl, List.not_mem_nil⟩

end Draft

end SearchIndex
