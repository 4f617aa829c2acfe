import SearchIndex.Proofs.Outcome.Traversal
import SearchIndex.Proofs.Table.OfList
import SearchIndex.Schema.Directory

/-!
# What a directory of schemas comes to

The schemas of a directory are loaded one after the other into a table, and every file is
read with the table at hand in which it will end up. That table plays no part in the reading:
`Schema.loadEach_eq` separates the two, so that loading is a traversal of the files and only
what they declare goes into a table. The result for a whole directory is
`Schema.loadAll_eq_ok_iff`: it is loaded exactly if each of its schema files is, in whatever
order they are listed, and a name that several of them declare is left to the last.

The files are those of one moment (`Files Id`), so that a file answers the same whenever it
is read.
-/

namespace SearchIndex.Schema

variable {files : Files Id} {loader : Loader} {directory : String} {loaded : Table Schema}

/-- The paths of the schema files of a directory, in the order in which it lists them. -/
def listed (files : Files Id) (directory : String) : Except Error (List String) :=
  if (files.isPresent directory).run then
    ((files.names directory).run.mapError .io).map fun names =>
      (names.filter isFileName).map (Files.within directory)
  else .error (.configuration (.missingDirectory directory))

/-- A way of loading schemas: fields infer their options, and nothing is said of a text that is
not a schema. -/
def inferring : Loader := ⟨true, fun _ => ""⟩

/-- The schema that a file holds. -/
def loadFrom (files : Files Id) (loader : Loader) (path : String) : Except Error Schema :=
  (load files loader path).run

/-- The name that the schema of a file declares, if the file holds a schema. -/
def nameIn? (files : Files Id) (loader : Loader) (path : String) : Option String :=
  (loadFrom files loader path).toOption.map Schema.name

/-- Among some files, one that declares another name than all that come behind it. -/
def Kept (files : Files Id) (loader : Loader) (paths : List String) (path : String) : Prop :=
  ∃ before after, paths = before ++ path :: after ∧
    ∀ later ∈ after, nameIn? files loader later ≠ nameIn? files loader path

/-- Schemas under the names that they declare; of several with one name, the last stays. -/
def byName (schemas : List Schema) : Table Schema :=
  .ofList (schemas.map fun s => (s.name, s))

theorem loadEach_cons (taken : Table Schema) (path : String) (rest : List String) :
    (loadEach files loader taken (path :: rest)).run =
      (loadFrom files loader path).bind fun s =>
        (loadEach files loader (taken.insert s.name s) rest).run := by
  have hload : (load files loader path).run = loadFrom files loader path := rfl
  rw [loadEach, Id.run_bind, hload]
  cases loadFrom files loader path <;> rfl

/-- **Reading the files and keeping what they declare are two things.** -/
theorem loadEach_eq (taken : Table Schema) (paths : List String) :
    (loadEach files loader taken paths).run =
      (paths.mapM (loadFrom files loader)).map fun schemas =>
        taken.insertAll (schemas.map fun s => (s.name, s)) := by
  -- whatever has been taken before, the next schema is written behind it
  induction paths generalizing taken with
  | nil => rfl
  | cons path rest ih =>
    rw [loadEach_cons, Outcome.mapM_cons]
    cases loadFrom files loader path with
    | error e => rfl
    | ok s =>
      change (loadEach files loader (taken.insert s.name s) rest).run = _
      rw [ih]
      cases rest.mapM (loadFrom files loader) <;> rfl

/-- **The files of a directory are loaded in the order in which it lists them.** -/
theorem loadAll_eq (files : Files Id) (loader : Loader) (directory : String) :
    (loadAll files loader directory).run = (listed files directory).bind fun paths =>
      (paths.mapM (loadFrom files loader)).map byName := by
  rw [loadAll, listed, Id.run_bind]
  cases (files.isPresent directory).run with
  | false => rfl
  | true =>
    -- the directory is there, and it can be listed or not
    rw [if_pos rfl, if_pos rfl, Id.run_bind]
    cases (files.names directory).run with
    | error report => rfl
    | ok names => exact loadEach_eq .empty _

/-- A directory is loaded exactly if all its schema files are. -/
theorem loadAll_eq_ok_iff : (loadAll files loader directory).run = .ok loaded ↔
    ∃ paths, listed files directory = .ok paths ∧ ∃ schemas,
      paths.map (loadFrom files loader) = schemas.map .ok ∧ byName schemas = loaded := by
  simp only [loadAll_eq, Outcome.bind_eq_ok_iff, Outcome.map_eq_ok_iff,
    Outcome.mapM_eq_ok_iff_map_eq]

/-- Some schemas are what the files hold exactly if every file holds one. -/
theorem exists_schemas_iff {paths : List String} :
    (∃ schemas : List Schema, paths.map (loadFrom files loader) = schemas.map .ok) ↔
      ∀ path ∈ paths, ∃ s, loadFrom files loader path = .ok s := by
  simp only [← Outcome.mapM_eq_ok_iff_map_eq]
  exact Outcome.exists_mapM_eq_ok_iff

/-- Of several schemas, those are kept that no later one of the same name replaces. -/
theorem mem_values_byName_iff {schemas : List Schema} {s : Schema} :
    s ∈ (byName schemas).values ↔ ∃ before after, schemas = before ++ s :: after ∧
      ∀ later ∈ after, later.name ≠ s.name := by
  rw [byName, Table.mem_values_ofList_iff]
  constructor
  · -- an entry of the table comes from a schema, and so do those behind it
    rintro ⟨before, key, after, hsplit, hother⟩
    obtain ⟨earlier, rest, rfl, rfl, hrest⟩ := List.map_eq_append_iff.mp hsplit
    obtain ⟨s', later, rfl, hentry, rfl⟩ := List.map_eq_cons_iff.mp hrest
    obtain ⟨rfl, rfl⟩ := Prod.mk.inj hentry
    refine ⟨earlier, later, rfl, fun t ht heq => hother ?_⟩
    rw [List.map_map]
    exact heq ▸ List.mem_map_of_mem ht
  · rintro ⟨before, after, rfl, hother⟩
    refine ⟨before.map fun s => (s.name, s), s.name, after.map fun s => (s.name, s), by simp, ?_⟩
    rw [List.map_map]
    intro hmem
    obtain ⟨t, ht, heq⟩ := List.mem_map.mp hmem
    exact hother t ht heq

theorem nameIn?_of_loaded {path : String} {s : Schema} (h : loadFrom files loader path = .ok s) :
    nameIn? files loader path = some s.name := by
  rw [nameIn?, h]
  rfl

theorem Kept.mem {paths : List String} {path : String} (h : Kept files loader paths path) :
    path ∈ paths := by
  obtain ⟨before, after, rfl, -⟩ := h
  exact List.mem_append_right before List.mem_cons_self

/-- Where files declare different names, each of them is kept. -/
theorem kept_of_distinct {paths : List String} {path : String}
    (hdistinct : paths.Pairwise fun path later => ∀ name,
      nameIn? files loader path = some name → nameIn? files loader later ≠ some name)
    (hpath : path ∈ paths) (hloaded : ∃ s, loadFrom files loader path = .ok s) :
    Kept files loader paths path := by
  obtain ⟨before, after, rfl⟩ := List.append_of_mem hpath
  obtain ⟨s, hs⟩ := hloaded
  have hname := nameIn?_of_loaded hs
  -- whatever comes behind the path declares another name
  rw [List.pairwise_append, List.pairwise_cons] at hdistinct
  obtain ⟨-, ⟨hbehind, -⟩, -⟩ := hdistinct
  exact ⟨before, after, rfl, fun later hlater heq =>
    hbehind later hlater s.name hname (heq.trans hname)⟩

/-- **Of several files, those count that no later one of the same name replaces.** -/
theorem mem_values_of_loaded {paths : List String} {schemas : List Schema} {s : Schema}
    (h : paths.map (loadFrom files loader) = schemas.map .ok) :
    s ∈ (byName schemas).values ↔
      ∃ path, Kept files loader paths path ∧ loadFrom files loader path = .ok s := by
  rw [mem_values_byName_iff]
  constructor
  · rintro ⟨earlier, later, rfl, hother⟩
    rw [List.map_append, List.map_cons] at h
    obtain ⟨before, rest, rfl, -, hrest⟩ := List.map_eq_append_iff.mp h
    obtain ⟨path, after, rfl, hpath, hafter⟩ := List.map_eq_cons_iff.mp hrest
    refine ⟨path, ⟨before, after, rfl, fun p hp hname => ?_⟩, hpath⟩
    -- a later file of the name would hold a later schema of the name
    have hmem : loadFrom files loader p ∈ later.map .ok := hafter ▸ List.mem_map_of_mem hp
    obtain ⟨t, ht, hload⟩ := List.mem_map.mp hmem
    rw [nameIn?_of_loaded hload.symm, nameIn?_of_loaded hpath] at hname
    exact hother t ht (Option.some.inj hname)
  · rintro ⟨path, ⟨before, after, rfl, hother⟩, hpath⟩
    rw [List.map_append, List.map_cons] at h
    obtain ⟨earlier, rest, rfl, -, hrest⟩ := List.map_eq_append_iff.mp h.symm
    obtain ⟨s', later, rfl, hs, hlater⟩ := List.map_eq_cons_iff.mp hrest
    obtain rfl : s' = s := Except.ok.inj (hs.trans hpath)
    refine ⟨earlier, later, rfl, fun t ht hname => ?_⟩
    -- a later schema of the name would come from a later file of the name
    have hmem : .ok t ∈ after.map (loadFrom files loader) := hlater ▸ List.mem_map_of_mem ht
    obtain ⟨p, hp, hload⟩ := List.mem_map.mp hmem
    exact hother p hp (by rw [nameIn?_of_loaded hload, nameIn?_of_loaded hpath, hname])

end SearchIndex.Schema
