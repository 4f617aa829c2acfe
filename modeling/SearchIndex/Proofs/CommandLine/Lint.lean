import SearchIndex.CommandLine
import SearchIndex.Proofs.Schema.Directory

/-!
# What the check of a directory covers

`lint` loads all schemas of a directory and looks at what the directory then holds under each
name. `CommandLine.lint_succeeds_iff` says what this comes to for the files, in terms of the
command that writes the mapping of one file: every file has to be readable as a schema, but
of several files that declare one name only the last in the order of the listing is looked
at. Where every file declares a name of its own, the check covers all of them.

So a file without a mapping can pass, and whether it does depends on the order of the listing.
`CommandLine.lint_passes_over` is the smallest such directory.
-/

namespace SearchIndex.CommandLine

open Schema (listed loadFrom nameIn? Kept exists_schemas_iff inferring)

/-- The command comes to a text. -/
def Command.Succeeds (files : Files Id) (report : String → String) (config : Config)
    (c : Command) : Prop :=
  ∃ text, (c.run files report config).run = .ok text

/-- Whether a command comes to a text can be seen by running it. -/
theorem Command.succeeds_iff_isOk {files : Files Id} {report : String → String}
    {config : Config} {c : Command} :
    c.Succeeds files report config ↔ (c.run files report config).run.isOk = true := by
  rw [Succeeds]
  cases (c.run files report config).run <;> simp [Except.isOk, Except.toBool]

instance (files : Files Id) (report : String → String) (config : Config) (c : Command) :
    Decidable (c.Succeeds files report config) :=
  decidable_of_iff _ Command.succeeds_iff_isOk.symm

variable {files : Files Id} {report : String → String} {config : Config}
  {directory : Option String} {path : String} {paths : List String}

/-- A mapping is written if the file holds a schema that has one. -/
theorem mapping_succeeds_iff {pretty : Bool} :
    (Command.mapping path pretty).Succeeds files report config ↔
    ∃ s, loadFrom files (loaderOf report config) path = .ok s ∧
      ∃ document, s.definition.mapping = .ok document := by
  -- a mapping is made of the schema, and nothing else is looked at
  have hrun : ((Command.mapping path pretty).run files report config).run =
      ((loadFrom files (loaderOf report config) path).bind
        fun s => mappingText pretty s.definition).mapError .error := rfl
  simp only [Command.Succeeds, hrun, Outcome.mapError_eq_ok_iff, Outcome.bind_eq_ok_iff,
    mappingText, Outcome.map_eq_ok_iff]
  constructor
  · rintro ⟨-, s, hs, document, hdocument, -⟩
    exact ⟨s, hs, document, hdocument⟩
  · rintro ⟨s, hs, document, hdocument⟩
    exact ⟨_, s, hs, document, hdocument, rfl⟩

/-- There is nothing to say against schemas that all have a mapping. -/
theorem exists_lintText_eq_ok_iff {schemas : Table Schema} :
    (∃ text, lintText schemas = .ok text) ↔
      ∀ s ∈ schemas.values, ∃ document, s.definition.mapping = .ok document := by
  -- a schema is reported as unresolved if its mapping fails, whatever the error
  have hresolved : ∀ s : Schema, ¬ isUnresolved s.definition = true ↔
      ∃ document, s.definition.mapping = .ok document := by
    intro s
    rw [isUnresolved]
    cases s.definition.mapping <;> simp
  -- none is reported if all have a mapping
  have hfailed : (schemas.values.filter fun s => isUnresolved s.definition).length = 0 ↔
      ∀ s ∈ schemas.values, ∃ document, s.definition.mapping = .ok document := by
    rw [List.length_eq_zero_iff, List.filter_eq_nil_iff]
    simp only [hresolved]
  rw [← hfailed]
  constructor
  · -- a text is written only where none is reported
    rintro ⟨text, htext⟩
    rw [lintText] at htext
    by_contra hsome
    rw [if_neg hsome] at htext
    cases htext
  · intro hnone
    exact ⟨_, if_pos hnone⟩

/-- The check loads the directory and then comes to what it says of the schemas. -/
theorem lint_run_eq_ok_iff {text : String} :
    ((Command.lint directory).run files report config).run = .ok text ↔ ∃ loaded,
      (Schema.loadAll files (loaderOf report config) (directory.getD config.schemas)).run =
          .ok loaded ∧ lintText loaded = .ok text := by
  have hrun : ((Command.lint directory).run files report config).run =
      ((Schema.loadAll files (loaderOf report config)
        (directory.getD config.schemas)).run.mapError Failure.error).bind lintText := rfl
  rw [hrun]
  cases (Schema.loadAll files (loaderOf report config) (directory.getD config.schemas)).run with
  | error e => exact ⟨nofun, nofun⟩
  | ok loaded => exact ⟨fun htext => ⟨loaded, rfl, htext⟩, fun ⟨_, rfl, htext⟩ => htext⟩

/-- The check succeeds if the directory is loaded and every schema that it then holds has a
mapping. -/
theorem lint_succeeds_iff_loaded : (Command.lint directory).Succeeds files report config ↔
    ∃ paths, listed files (directory.getD config.schemas) = .ok paths ∧ ∃ schemas,
      paths.map (loadFrom files (loaderOf report config)) = schemas.map .ok ∧
      ∀ s ∈ (Schema.byName schemas).values, ∃ document, s.definition.mapping = .ok document := by
  simp only [Command.Succeeds, lint_run_eq_ok_iff, Schema.loadAll_eq_ok_iff]
  constructor
  · rintro ⟨text, loaded, ⟨paths, hpaths, schemas, hschemas, rfl⟩, htext⟩
    exact ⟨paths, hpaths, schemas, hschemas, exists_lintText_eq_ok_iff.mp ⟨text, htext⟩⟩
  · rintro ⟨paths, hpaths, schemas, hschemas, hresolved⟩
    obtain ⟨text, htext⟩ := exists_lintText_eq_ok_iff.mpr hresolved
    exact ⟨text, _, ⟨paths, hpaths, schemas, hschemas, rfl⟩, htext⟩

/-- The check succeeds if every schema file can be loaded and the mapping of those that are
kept can be written. -/
theorem lint_succeeds_iff_kept (pretty : Bool) :
    (Command.lint directory).Succeeds files report config ↔
    ∃ paths, listed files (directory.getD config.schemas) = .ok paths ∧
      (∀ path ∈ paths, ∃ s, loadFrom files (loaderOf report config) path = .ok s) ∧
      ∀ path, Kept files (loaderOf report config) paths path →
        (Command.mapping path pretty).Succeeds files report config := by
  rw [lint_succeeds_iff_loaded]
  constructor
  · rintro ⟨paths, hpaths, schemas, hschemas, hresolved⟩
    have hloaded := exists_schemas_iff.mp ⟨schemas, hschemas⟩
    refine ⟨paths, hpaths, hloaded, fun path hkept => ?_⟩
    -- a file that is kept is one of those that are listed
    obtain ⟨s, hs⟩ := hloaded path hkept.mem
    -- the schema of the file stays to the end, and so it is looked at
    have hvalue : s ∈ (Schema.byName schemas).values :=
      (Schema.mem_values_of_loaded hschemas).mpr ⟨path, hkept, hs⟩
    exact mapping_succeeds_iff.mpr ⟨s, hs, hresolved s hvalue⟩
  · rintro ⟨paths, hpaths, hloaded, hmapping⟩
    obtain ⟨schemas, hschemas⟩ := exists_schemas_iff.mpr hloaded
    refine ⟨paths, hpaths, schemas, hschemas, fun s hvalue => ?_⟩
    -- a schema in the table comes from a file that is kept
    obtain ⟨path, hkept, hs⟩ := (Schema.mem_values_of_loaded hschemas).mp hvalue
    obtain ⟨s', hs', hdocument⟩ := mapping_succeeds_iff.mp (hmapping path hkept)
    obtain rfl : s' = s := Except.ok.inj (hs'.symm.trans hs)
    exact hdocument

/-- **Which files the check looks at.** It succeeds exactly if every schema file of the
directory can be loaded, and the mapping of those can be written that no later file of the
same name replaces. If all files declare different names, none is replaced, and it succeeds
exactly if the mapping of every file can be written. -/
theorem lint_succeeds_iff (files : Files Id) (report : String → String) (config : Config)
    (directory : Option String) (pretty : Bool) :
    ((Command.lint directory).Succeeds files report config ↔
      ∃ paths, listed files (directory.getD config.schemas) = .ok paths ∧
        (∀ path ∈ paths, ∃ s, loadFrom files (loaderOf report config) path = .ok s) ∧
        ∀ path, Kept files (loaderOf report config) paths path →
          (Command.mapping path pretty).Succeeds files report config) ∧
    ∀ paths, listed files (directory.getD config.schemas) = .ok paths →
      (paths.Pairwise fun path later => ∀ name,
        nameIn? files (loaderOf report config) path = some name →
          nameIn? files (loaderOf report config) later ≠ some name) →
      ((Command.lint directory).Succeeds files report config ↔
        ∀ path ∈ paths, (Command.mapping path pretty).Succeeds files report config) := by
  refine ⟨lint_succeeds_iff_kept pretty, fun paths hpaths hdistinct => ?_⟩
  rw [lint_succeeds_iff_kept pretty]
  constructor
  · -- no file is replaced, so all that are loaded are kept
    rintro ⟨paths', hpaths', hloaded, hmapping⟩ path hpath
    obtain rfl : paths = paths' := Except.ok.inj (hpaths.symm.trans hpaths')
    exact hmapping path (Schema.kept_of_distinct hdistinct hpath (hloaded path hpath))
  · -- a file with a mapping has been loaded, and the kept ones are among the listed
    intro hall
    refine ⟨paths, hpaths, fun path hpath => ?_, fun path hkept => hall path hkept.mem⟩
    obtain ⟨s, hs, -⟩ := mapping_succeeds_iff.mp (hall path hpath)
    exact ⟨s, hs⟩

/-- The text of a schema with one field. -/
def oneField (name option : String) : String :=
  "name: " ++ name ++ "\ntargets:\n  - name: T\nfields:\n  - name: x\n    " ++ option ++ "\n"

/-- A directory of two schemas of different names. -/
def separate : FileTree :=
  .ofPaths [("d/a.yaml", some (oneField "a" "type: text").toUTF8),
    ("d/b.yml", some (oneField "b" "type: date").toUTF8)]

/-- Each of the two has a mapping, and the check succeeds. -/
theorem separate_lint_succeeds : ∃ paths, listed separate.files "d" = .ok paths ∧
    (paths.Pairwise fun path later => ∀ name,
      nameIn? separate.files inferring path = some name →
        nameIn? separate.files inferring later ≠ some name) ∧
    (∀ path ∈ paths,
      (Command.mapping path false).Succeeds separate.files inferring.report .initial) ∧
    (Command.lint (some "d")).Succeeds separate.files inferring.report .initial := by
  -- the listing is that of the directory, in the order in which it comes
  have hlisted : listed separate.files "d" = .ok ["d/b.yml", "d/a.yaml"] :=
    Outcome.toOption_eq_some_iff.mp (by decide +kernel)
  have hb : nameIn? separate.files inferring "d/b.yml" = some "b" := by decide +kernel
  have ha : nameIn? separate.files inferring "d/a.yaml" = some "a" := by decide +kernel
  have hdistinct : ["d/b.yml", "d/a.yaml"].Pairwise fun path later => ∀ name,
      nameIn? separate.files inferring path = some name →
        nameIn? separate.files inferring later ≠ some name := by
    simp [ha, hb]
  -- both fields have a type, so both files have a mapping
  have hmapping : ∀ path ∈ ["d/b.yml", "d/a.yaml"],
      (Command.mapping path false).Succeeds separate.files inferring.report .initial := by
    decide +kernel
  have hall := (lint_succeeds_iff separate.files inferring.report .initial (some "d") false).2 _
    hlisted hdistinct
  exact ⟨_, hlisted, hdistinct, hmapping, hall.mpr hmapping⟩

/-- A directory of two schemas of one name. The field of the one that is listed first can have
no type. -/
def replaced : FileTree :=
  .ofPaths [("d/typed.yaml", some (oneField "a" "type: text").toUTF8),
    ("d/silent.yaml", some (oneField "a" "inference: false").toUTF8)]

/-- The two files in the order of the listing. -/
theorem listed_replaced : listed replaced.files "d" = .ok ["d/silent.yaml", "d/typed.yaml"] :=
  Outcome.toOption_eq_some_iff.mp (by decide +kernel)

/-- **The check does not look at every file**: one that another replaces need not have a
mapping. -/
theorem lint_passes_over : ¬ ∀ (files : Files Id) (report : String → String) (config : Config)
    (directory : Option String) (pretty : Bool) (paths : List String),
    listed files (directory.getD config.schemas) = .ok paths →
    ((Command.lint directory).Succeeds files report config ↔
      ∀ path ∈ paths, (Command.mapping path pretty).Succeeds files report config) := by
  intro h
  -- the later file has a mapping, which is the one that is looked at
  have hpasses : (Command.lint (some "d")).Succeeds replaced.files inferring.report .initial := by
    decide +kernel
  -- the field of the earlier file is neither typed nor inferred
  have hfails : ¬ (Command.mapping "d/silent.yaml" false).Succeeds replaced.files
      inferring.report .initial := by
    decide +kernel
  have hall := (h replaced.files inferring.report .initial (some "d") false _
    listed_replaced).mp hpasses
  exact hfails (hall "d/silent.yaml" List.mem_cons_self)

end SearchIndex.CommandLine
