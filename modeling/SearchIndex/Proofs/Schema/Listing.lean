import SearchIndex.Proofs.Outcome.Rel
import SearchIndex.Proofs.Schema.Directory

/-!
# The order in which a directory is listed

A directory lists its files in an order of its own, which says nothing about them. What the
loading of its schemas makes of that order is said by comparing all orders of one directory
(`Schema.Relists`).

Whether loading fails does not depend on the order, although the error may: it is that of the
first file without a schema. Neither do the names under which schemas are found. What is found
under a name is the schema of the last file that declares it, so the order counts exactly for
the names in dispute, those that files declare for different schemas
(`Schema.loadAll_relisted`). Two files are enough for that (`Schema.loadAll_in_two_orders`).
-/

namespace SearchIndex.Schema

variable {files files' : Files Id} {loader : Loader} {directory name : String}
  {paths paths' : List String} {schemas schemas' : List Schema} {s : Schema}

/-! ### Orders of one directory -/

/-- Access to the same files, with the names in a directory in some order. -/
structure Relists (files' files : Files Id) (directory : String) : Prop where
  isPresent : (files'.isPresent directory).run = (files.isPresent directory).run
  bytes : ∀ path, (files'.bytes path).run = (files.bytes path).run
  names : Outcome.Rel List.Perm (files'.names directory).run (files.names directory).run

/-- What a file holds is read from its bytes alone. -/
theorem loadFrom_eq (files : Files Id) (loader : Loader) (path : String) :
    loadFrom files loader path =
      (((files.bytes path).run.bind Files.decode).mapError .io).bind (read loader) := by
  have htext : (files.text path).run = (files.bytes path).run.bind Files.decode := rfl
  rw [loadFrom, load, Id.run_bind, htext]
  cases (files.bytes path).run.bind Files.decode <;> rfl

namespace Relists

theorem refl (files : Files Id) (directory : String) : Relists files files directory where
  isPresent := rfl
  bytes _ := rfl
  names := by
    cases (files.names directory).run with
    | error report => exact .error report
    | ok names => exact .ok (.refl names)

theorem loadFrom_eq (h : Relists files' files directory) :
    loadFrom files' loader = loadFrom files loader := by
  funext path
  rw [Schema.loadFrom_eq, Schema.loadFrom_eq, h.bytes]

/-- The same schema files are listed, if any can be. -/
theorem listed (h : Relists files' files directory) :
    Outcome.Rel List.Perm (listed files' directory) (listed files directory) := by
  unfold Schema.listed
  rw [h.isPresent]
  split
  · refine (h.names.mapError Error.io).map fun names' names hperm => ?_
    exact (hperm.filter isFileName).map (Files.within directory)
  · exact .error _

end Relists

/-- Any file can be the last one in an order. -/
theorem exists_relists_last (hlisted : listed files directory = .ok paths) {path : String}
    (hpath : path ∈ paths) : ∃ files' before, Relists files' files directory ∧
      listed files' directory = .ok (before ++ [path]) ∧ (before ++ [path]).Perm paths := by
  unfold listed at hlisted
  cases hpresent : (files.isPresent directory).run <;> rw [hpresent] at hlisted
  -- a directory that is not there lists nothing
  case false => cases hlisted
  obtain ⟨names, hnames, rfl⟩ := Outcome.map_eq_ok_iff.mp hlisted
  have hnames := Outcome.mapError_eq_ok_iff.mp hnames
  obtain ⟨n, hn, rfl⟩ := List.mem_map.mp hpath
  obtain ⟨hmem, hfile⟩ := List.mem_filter.mp hn
  -- the names before and behind the file can be anything
  obtain ⟨before, after, rfl⟩ := List.append_of_mem hmem
  -- its name is taken out and put to the end
  have hperm : (before ++ after ++ [n]).Perm (before ++ n :: after) :=
    (List.perm_append_singleton n _).trans List.perm_middle.symm
  have hfiles : ((before ++ after ++ [n]).filter isFileName).map (Files.within directory) =
      ((before ++ after).filter isFileName).map (Files.within directory) ++
        [Files.within directory n] := by
    rw [List.filter_append, List.map_append, List.filter_singleton, hfile]
    rfl
  refine ⟨{ files with names := fun _ => pure (.ok (before ++ after ++ [n])) },
    ((before ++ after).filter isFileName).map (Files.within directory),
    ⟨rfl, fun _ => rfl, ?_⟩, ?_, ?_⟩
  · rw [hnames]
    exact .ok hperm
  · unfold listed
    change (if (files.isPresent directory).run then _ else _) = _
    rw [hpresent, if_pos rfl, ← hfiles]
    rfl
  · rw [← hfiles]
    exact (hperm.filter isFileName).map (Files.within directory)

/-! ### What is found under a name -/

/-- What is found under a name is a schema of that name. -/
theorem get?_byName_eq_some_iff : (byName schemas).get? name = some s ↔
    s ∈ (byName schemas).values ∧ s.name = name := by
  -- an entry has the name of its schema
  have hname : ∀ {before after key},
      schemas.map (fun t => (t.name, t)) = before ++ (key, s) :: after → s.name = key := by
    intro before after key hsplit
    have hmem : (key, s) ∈ schemas.map fun t => (t.name, t) := hsplit ▸ by simp
    obtain ⟨t, -, hentry⟩ := List.mem_map.mp hmem
    obtain ⟨hkey, rfl⟩ := Prod.mk.inj hentry
    exact hkey
  unfold byName
  rw [Table.get?_ofList_eq_some_iff, Table.mem_values_ofList_iff]
  constructor
  · rintro ⟨before, after, hsplit, hlast⟩
    exact ⟨⟨before, name, after, hsplit, hlast⟩, hname hsplit⟩
  · rintro ⟨⟨before, key, after, hsplit, hlast⟩, rfl⟩
    obtain rfl := hname hsplit
    exact ⟨before, after, hsplit, hlast⟩

/-- **The last file of a name** has the schema that is found under it. -/
theorem get?_of_loaded (h : paths.map (loadFrom files loader) = schemas.map .ok) :
    (byName schemas).get? name = some s ↔ ∃ path, Kept files loader paths path ∧
      loadFrom files loader path = .ok s ∧ s.name = name := by
  rw [get?_byName_eq_some_iff, mem_values_of_loaded h]
  simp only [← and_assoc, exists_and_right]

/-- **A name is there** if one of the files declares it. -/
theorem contains_of_loaded (h : paths.map (loadFrom files loader) = schemas.map .ok) :
    (byName schemas).contains name ↔ ∃ path ∈ paths, nameIn? files loader path = some name := by
  -- the names of the schemas are those that the files declare
  have hnames : paths.map (nameIn? files loader) = schemas.map fun t => some t.name := by
    have := congrArg (List.map fun r => r.toOption.map Schema.name) h
    rwa [List.map_map, List.map_map] at this
  have hdeclared : (∃ path ∈ paths, nameIn? files loader path = some name) ↔
      some name ∈ paths.map (nameIn? files loader) := List.mem_map.symm
  rw [hdeclared, hnames, Table.contains, ← Table.mem_keys_iff, byName, Table.mem_keys_ofList]
  simp

/-- Among some files, all that declare a name hold the same schema. -/
def Undisputed (files : Files Id) (loader : Loader) (paths : List String) (name : String) : Prop :=
  ∀ path ∈ paths, ∀ path' ∈ paths, nameIn? files loader path = some name →
    nameIn? files loader path' = some name →
      loadFrom files loader path = loadFrom files loader path'

theorem Undisputed.perm (h : Undisputed files loader paths name) (hperm : paths'.Perm paths) :
    Undisputed files loader paths' name := by
  intro path hpath path' hpath'
  exact h path (hperm.mem_iff.mp hpath) path' (hperm.mem_iff.mp hpath')

/-- What one order has under a name that is not in dispute, any other has too. -/
theorem get?_of_undisputed (h : paths.map (loadFrom files loader) = schemas.map .ok)
    (h' : paths'.map (loadFrom files loader) = schemas'.map .ok) (hperm : paths'.Perm paths)
    (hname : Undisputed files loader paths name) (hs : (byName schemas').get? name = some s) :
    (byName schemas).get? name = some s := by
  obtain ⟨path', hkept', hload', rfl⟩ := (get?_of_loaded h').mp hs
  have hpath' : path' ∈ paths := hperm.mem_iff.mp hkept'.mem
  have hdeclares' := nameIn?_of_loaded hload'
  -- some file is the last in the other order, and it holds the same
  obtain ⟨t, ht⟩ := Option.isSome_iff_exists.mp
    ((contains_of_loaded h).mpr ⟨path', hpath', hdeclares'⟩)
  obtain ⟨path, hkept, hload, hsame⟩ := (get?_of_loaded h).mp ht
  have hdeclares : nameIn? files loader path = some s.name := hsame ▸ nameIn?_of_loaded hload
  have hboth := hname path hkept.mem path' hpath' hdeclares hdeclares'
  obtain rfl : t = s := Except.ok.inj (hload.symm.trans (hboth.trans hload'))
  exact ht

/-- **A name that is not in dispute** has the same schema in any two orders. -/
theorem get?_eq_of_undisputed (h : paths.map (loadFrom files loader) = schemas.map .ok)
    (h' : paths'.map (loadFrom files loader) = schemas'.map .ok) (hperm : paths'.Perm paths)
    (hname : Undisputed files loader paths name) :
    (byName schemas').get? name = (byName schemas).get? name := by
  ext s
  exact ⟨get?_of_undisputed h h' hperm hname,
    get?_of_undisputed h' h hperm.symm (hname.perm hperm)⟩

/-! ### What the order counts for -/

/-- Some schemas are what a directory comes to in one of its orders. -/
def MayHold (files : Files Id) (loader : Loader) (directory : String) (loaded : Table Schema) :
    Prop :=
  ∃ files', Relists files' files directory ∧ (loadAll files' loader directory).run = .ok loaded

/-- Where all files hold schemas, they are loaded in every order. -/
theorem exists_of_relists (hrelists : Relists files' files directory)
    (hlisted : listed files directory = .ok paths)
    (hloaded : ∀ path ∈ paths, ∃ s, loadFrom files loader path = .ok s) :
    ∃ paths' schemas', listed files' directory = .ok paths' ∧ paths'.Perm paths ∧
      paths'.map (loadFrom files loader) = schemas'.map .ok ∧
      (loadAll files' loader directory).run = .ok (byName schemas') := by
  have hrel := hrelists.listed
  rw [hlisted] at hrel
  -- the other order lists the same files, which are loaded as before
  obtain ⟨paths', hlisted', hperm⟩ := hrel.exists_of_ok
  obtain ⟨schemas', hschemas'⟩ := exists_schemas_iff.mpr fun path hpath =>
    hloaded path (hperm.mem_iff.mp hpath)
  refine ⟨paths', schemas', hlisted', hperm, hschemas', loadAll_eq_ok_iff.mpr ?_⟩
  exact ⟨paths', hlisted', schemas', hrelists.loadFrom_eq ▸ hschemas', rfl⟩

/-- What is loaded in one order are the schemas of the same files in some order. -/
theorem MayHold.exists_schemas {loaded : Table Schema} (h : MayHold files loader directory loaded) :
    ∃ (paths paths' : List String) (schemas' : List Schema),
      listed files directory = .ok paths ∧ paths'.Perm paths ∧
      paths'.map (loadFrom files loader) = schemas'.map .ok ∧ byName schemas' = loaded := by
  obtain ⟨files', hrelists, hload⟩ := h
  obtain ⟨paths', hlisted', schemas', hschemas', hloaded⟩ := loadAll_eq_ok_iff.mp hload
  have hrel := hrelists.listed
  rw [hlisted'] at hrel
  obtain ⟨paths, hlisted, hperm⟩ := hrel.exists_of_ok_left
  exact ⟨paths, paths', schemas', hlisted, hperm, hrelists.loadFrom_eq ▸ hschemas', hloaded⟩

/-- The schema of the last of all files is found under its name. -/
theorem exists_loaded_of_last {before : List String} {path : String}
    (hlisted : listed files directory = .ok (before ++ [path]))
    (hloaded : ∀ p ∈ before ++ [path], ∃ s, loadFrom files loader p = .ok s)
    (hs : loadFrom files loader path = .ok s) :
    ∃ loaded, (loadAll files loader directory).run = .ok loaded ∧
      loaded.get? s.name = some s := by
  obtain ⟨schemas, hschemas⟩ := exists_schemas_iff.mpr hloaded
  -- nothing is behind the last file
  have hkept : Kept files loader (before ++ [path]) path :=
    ⟨before, [], rfl, fun later hlater => absurd hlater List.not_mem_nil⟩
  exact ⟨byName schemas, loadAll_eq_ok_iff.mpr ⟨_, hlisted, schemas, hschemas, rfl⟩,
    (get?_of_loaded hschemas).mpr ⟨path, hkept, hs, rfl⟩⟩

/-- Where two orders never have different schemas under a name, the name is not in dispute: a
file that declares it could be the last. -/
theorem undisputed_of_mayHold (hlisted : listed files directory = .ok paths)
    (hloaded : ∀ path ∈ paths, ∃ s, loadFrom files loader path = .ok s)
    (h : ∀ loaded loaded', MayHold files loader directory loaded →
      MayHold files loader directory loaded' → loaded.get? name = loaded'.get? name) :
    Undisputed files loader paths name := by
  -- what a file of the name holds is found under it in one of the orders
  have hlast : ∀ path ∈ paths, nameIn? files loader path = some name → ∃ s loaded,
      loadFrom files loader path = .ok s ∧ MayHold files loader directory loaded ∧
        loaded.get? name = some s := by
    intro path hpath hname
    obtain ⟨s, hs⟩ := hloaded path hpath
    obtain rfl : s.name = name := Option.some.inj ((nameIn?_of_loaded hs).symm.trans hname)
    obtain ⟨files', before, hrelists, hlisted', hperm⟩ := exists_relists_last hlisted hpath
    have hs' := hs
    rw [← hrelists.loadFrom_eq] at hs'
    have hloaded' : ∀ p ∈ before ++ [path], ∃ s, loadFrom files' loader p = .ok s := by
      intro p hp
      rw [hrelists.loadFrom_eq]
      exact hloaded p (hperm.mem_iff.mp hp)
    obtain ⟨loaded, hload, hget⟩ := exists_loaded_of_last hlisted' hloaded' hs'
    exact ⟨s, loaded, hs, ⟨files', hrelists, hload⟩, hget⟩
  intro path hpath path' hpath' hname hname'
  -- of two files of the name, each is the last in some order
  obtain ⟨s, loaded, hs, hhold, hget⟩ := hlast path hpath hname
  obtain ⟨s', loaded', hs', hhold', hget'⟩ := hlast path' hpath' hname'
  have hsame : some s = some s' := hget.symm.trans ((h loaded loaded' hhold hhold').trans hget')
  rw [hs, hs', Option.some.inj hsame]

/-- **What the order of the listing counts for.** Either loading fails in every order, or in
every order it succeeds, with schemas under the names that some listed file declares, and under
each of them the schema of the last file that does. So two orders have the same under a name, or
nothing in both, exactly if the name is not in dispute among the files. -/
theorem loadAll_relisted (files : Files Id) (loader : Loader) (directory : String) :
    (∀ files', Relists files' files directory →
      ∃ e, (loadAll files' loader directory).run = .error e) ∨
    ∃ paths, listed files directory = .ok paths ∧
      (∀ files', Relists files' files directory → ∃ paths' loaded,
        listed files' directory = .ok paths' ∧ paths'.Perm paths ∧
        (loadAll files' loader directory).run = .ok loaded ∧
        (∀ name, loaded.contains name ↔ ∃ path ∈ paths, nameIn? files loader path = some name) ∧
        ∀ name s, loaded.get? name = some s ↔ ∃ path, Kept files loader paths' path ∧
          loadFrom files loader path = .ok s ∧ s.name = name) ∧
      ∀ name, Undisputed files loader paths name ↔
        ∀ loaded loaded', MayHold files loader directory loaded →
          MayHold files loader directory loaded' → loaded.get? name = loaded'.get? name := by
  by_cases hall : ∃ paths, listed files directory = .ok paths ∧
      ∀ path ∈ paths, ∃ s, loadFrom files loader path = .ok s
  case neg =>
    -- in an order that did not fail, all files could be listed and loaded
    refine .inl fun files' hrelists => ?_
    cases hload : (loadAll files' loader directory).run with
    | error e => exact ⟨e, rfl⟩
    | ok loaded =>
      have hhold : MayHold files loader directory loaded := ⟨files', hrelists, hload⟩
      obtain ⟨paths, paths', schemas', hlisted, hperm, hschemas', -⟩ := hhold.exists_schemas
      have hloaded := exists_schemas_iff.mp ⟨schemas', hschemas'⟩
      exact absurd ⟨paths, hlisted, fun path hpath => hloaded path (hperm.mem_iff.mpr hpath)⟩ hall
  case pos =>
    obtain ⟨paths, hlisted, hloaded⟩ := hall
    refine .inr ⟨paths, hlisted, fun files' hrelists => ?_, fun name => ⟨?_, ?_⟩⟩
    · -- the files of the other order are the same, and so are their names
      obtain ⟨paths', schemas', hlisted', hperm, hschemas', hload⟩ :=
        exists_of_relists hrelists hlisted hloaded
      refine ⟨paths', byName schemas', hlisted', hperm, hload, fun name => ?_,
        fun name s => get?_of_loaded hschemas'⟩
      rw [contains_of_loaded hschemas']
      exact exists_congr fun path => and_congr_left fun _ => hperm.mem_iff
    · intro hname
      -- each of the two orders has what the directory has as it is listed
      obtain ⟨schemas, hschemas⟩ := exists_schemas_iff.mpr hloaded
      have hsame : ∀ loaded, MayHold files loader directory loaded →
          loaded.get? name = (byName schemas).get? name := by
        intro loaded hhold
        obtain ⟨paths', _, schemas', hlisted', hperm, hschemas', rfl⟩ := hhold.exists_schemas
        obtain rfl : paths = paths' := Except.ok.inj (hlisted.symm.trans hlisted')
        exact get?_eq_of_undisputed hschemas hschemas' hperm hname
      intro loaded loaded' hhold hhold'
      exact (hsame loaded hhold).trans (hsame loaded' hhold').symm
    · exact undisputed_of_mayHold hlisted hloaded

/-! ### Three files -/

/-- The text of a schema without fields, for one target. -/
def targetText (name target : String) : String :=
  "name: " ++ name ++ "\ntargets:\n- name: " ++ target

/-- Three files, of which two declare one name for different targets. -/
def disputedTexts : List (String × String) :=
  [("d/a.yaml", targetText "a" "T"), ("d/b.yaml", targetText "b" "T"),
    ("d/c.yml", targetText "a" "U")]

/-- The bytes of these files. -/
def disputedBytes (path : String) : Except String ByteArray :=
  match disputedTexts.lookup path with
  | some text => .ok text.toUTF8
  | none => .error FileTree.missing

/-- Access to these files in a directory that lists them in some order. -/
def disputed (names : List String) : Files Id where
  isPresent _ := pure true
  bytes path := pure (disputedBytes path)
  names _ := pure (.ok names)

/-- The name of a schema and those of its targets. -/
def headline (s : Schema) : String × List String :=
  (s.name, s.definition.targets.map Target.name)

theorem exists_of_headline {names : List String} {path text : String}
    {line : String × List String} (hpath : disputedTexts.lookup path = some text)
    (hline : (read inferring text).toOption.map headline = some line) :
    ∃ s, loadFrom (disputed names) inferring path = .ok s ∧ headline s = line := by
  obtain ⟨s, hs, rfl⟩ := Option.map_eq_some_iff.mp hline
  refine ⟨s, ?_, rfl⟩
  -- the bytes of the file are those of its text, which are decoded to it
  have hbytes : ((disputed names).bytes path).run = .ok text.toUTF8 := by
    change disputedBytes path = _
    rw [disputedBytes, hpath]
  have htext : Files.decode text.toUTF8 = .ok text := by
    have hread : String.fromUTF8? text.toUTF8 = some text := by
      unfold String.fromUTF8?
      exact dif_pos text.isValidUTF8
    rw [Files.decode, hread]
  have hdecoded : (Except.ok text.toUTF8).bind Files.decode = .ok text := htext
  rw [loadFrom_eq, hbytes, hdecoded]
  exact Outcome.toOption_eq_some_iff.mp hs

theorem loadFrom_a (names : List String) : ∃ s,
    loadFrom (disputed names) inferring "d/a.yaml" = .ok s ∧ headline s = ("a", ["T"]) :=
  exists_of_headline rfl (by decide +kernel)

theorem loadFrom_b (names : List String) : ∃ s,
    loadFrom (disputed names) inferring "d/b.yaml" = .ok s ∧ headline s = ("b", ["T"]) :=
  exists_of_headline rfl (by decide +kernel)

theorem loadFrom_c (names : List String) : ∃ s,
    loadFrom (disputed names) inferring "d/c.yml" = .ok s ∧ headline s = ("a", ["U"]) :=
  exists_of_headline rfl (by decide +kernel)

/-- In every order of the three files there are two names, and only under one of them always the
same schema. -/
theorem disputed_relisted :
    let files := disputed ["a.yaml", "b.yaml", "c.yml"]
    (∀ files', Relists files' files "d" → ∃ loaded,
      (loadAll files' inferring "d").run = .ok loaded ∧ loaded.contains "a" ∧ loaded.contains "b") ∧
    (∀ loaded loaded', MayHold files inferring "d" loaded → MayHold files inferring "d" loaded' →
      loaded.get? "b" = loaded'.get? "b") ∧
    ¬ ∀ loaded loaded', MayHold files inferring "d" loaded → MayHold files inferring "d" loaded' →
      loaded.get? "a" = loaded'.get? "a" := by
  intro files
  obtain ⟨sa, ha, hsa⟩ := loadFrom_a ["a.yaml", "b.yaml", "c.yml"]
  obtain ⟨sb, hb, hsb⟩ := loadFrom_b ["a.yaml", "b.yaml", "c.yml"]
  obtain ⟨sc, hc, hsc⟩ := loadFrom_c ["a.yaml", "b.yaml", "c.yml"]
  have hlisted : listed files "d" = .ok ["d/a.yaml", "d/b.yaml", "d/c.yml"] :=
    Outcome.toOption_eq_some_iff.mp (by decide)
  have hloaded : ∀ path ∈ ["d/a.yaml", "d/b.yaml", "d/c.yml"],
      ∃ s, loadFrom files inferring path = .ok s := by
    simp only [List.forall_mem_cons]
    exact ⟨⟨sa, ha⟩, ⟨sb, hb⟩, ⟨sc, hc⟩, fun _ h => absurd h List.not_mem_nil⟩
  have hna := (nameIn?_of_loaded ha).trans (congrArg (fun line => some line.1) hsa)
  have hnb := (nameIn?_of_loaded hb).trans (congrArg (fun line => some line.1) hsb)
  have hnc := (nameIn?_of_loaded hc).trans (congrArg (fun line => some line.1) hsc)
  obtain hfails | ⟨paths, hpaths, hany, hagree⟩ := loadAll_relisted files inferring "d"
  · -- some order would have failed, but as it stands the directory is loaded
    obtain ⟨e, he⟩ := hfails files (.refl files "d")
    obtain ⟨_, _, -, -, -, hload⟩ := exists_of_relists (.refl files "d") hlisted hloaded
    rw [he] at hload
    cases hload
  obtain rfl := Except.ok.inj (hlisted.symm.trans hpaths)
  refine ⟨fun files' hrelists => ?_, (hagree "b").mp ?_, fun hsame => ?_⟩
  · -- both names are declared by one of the files
    obtain ⟨-, loaded, -, -, hload, hnames, -⟩ := hany files' hrelists
    exact ⟨loaded, hload, (hnames "a").mpr ⟨_, by simp, hna⟩, (hnames "b").mpr ⟨_, by simp, hnb⟩⟩
  · -- only one of the files declares the name
    have honly : ∀ path ∈ ["d/a.yaml", "d/b.yaml", "d/c.yml"],
        nameIn? files inferring path = some "b" → path = "d/b.yaml" := by
      simp [files, hna, hnc]
    intro path hpath path' hpath' hname hname'
    rw [honly path hpath hname, honly path' hpath' hname']
  · -- the two files of the name would hold the same schema
    have hequal := (hagree "a").mpr hsame "d/a.yaml" (by simp) "d/c.yml" (by simp) hna hnc
    obtain rfl : sa = sc := Except.ok.inj (ha.symm.trans (hequal.trans hc))
    exact absurd (hsa.symm.trans hsc) (by decide)

/-- **Two orders of one directory can come to different schemas**, although all files of it are
loaded in both. -/
theorem loadAll_in_two_orders : ¬ ∀ (files files' : Files Id) (loader : Loader)
    (directory : String), Relists files' files directory →
      (∃ e, (loadAll files loader directory).run = .error e) ∧
        (∃ e, (loadAll files' loader directory).run = .error e) ∨
      ∃ loaded loaded', (loadAll files loader directory).run = .ok loaded ∧
        (loadAll files' loader directory).run = .ok loaded' ∧
        ∀ name, loaded.get? name = loaded'.get? name := by
  intro h
  -- in either order the schema of the second file is found
  have hlast : ∀ first second names s, listed (disputed names) "d" = .ok ([first] ++ [second]) →
      (∃ t, loadFrom (disputed names) inferring first = .ok t) →
      loadFrom (disputed names) inferring second = .ok s →
      ∃ loaded, (loadAll (disputed names) inferring "d").run = .ok loaded ∧
        loaded.get? s.name = some s := by
    intro first second names s hlisted hfirst hsecond
    refine exists_loaded_of_last hlisted ?_ hsecond
    simp only [List.singleton_append, List.forall_mem_cons]
    exact ⟨hfirst, ⟨s, hsecond⟩, fun _ hp => absurd hp List.not_mem_nil⟩
  obtain ⟨sa, ha, hsa⟩ := loadFrom_a ["c.yml", "a.yaml"]
  obtain ⟨sc, hc, hsc⟩ := loadFrom_c ["a.yaml", "c.yml"]
  obtain ⟨s, hs, -⟩ := loadFrom_c ["c.yml", "a.yaml"]
  obtain ⟨s', hs', -⟩ := loadFrom_a ["a.yaml", "c.yml"]
  obtain ⟨loaded, hload, hgeta⟩ := hlast "d/c.yml" "d/a.yaml" ["c.yml", "a.yaml"] sa
    (Outcome.toOption_eq_some_iff.mp (by decide)) ⟨s, hs⟩ ha
  obtain ⟨loaded', hload', hgetc⟩ := hlast "d/a.yaml" "d/c.yml" ["a.yaml", "c.yml"] sc
    (Outcome.toOption_eq_some_iff.mp (by decide)) ⟨s', hs'⟩ hc
  -- the two listings differ by a swap
  have hrelists : Relists (disputed ["a.yaml", "c.yml"]) (disputed ["c.yml", "a.yaml"]) "d" :=
    ⟨rfl, fun _ => rfl, .ok (.swap _ _ _)⟩
  obtain ⟨⟨e, he⟩, -⟩ | ⟨t, t', ht, ht', hsame⟩ := h _ _ inferring "d" hrelists
  · cases he.symm.trans hload
  · obtain rfl := Except.ok.inj (hload.symm.trans ht)
    obtain rfl := Except.ok.inj (hload'.symm.trans ht')
    -- under the name in dispute both have a schema, but not the same
    have hnames : sc.name = sa.name :=
      (congrArg Prod.fst hsc).trans (congrArg Prod.fst hsa).symm
    rw [hnames] at hgetc
    obtain rfl : sa = sc := Option.some.inj (hgeta.symm.trans ((hsame sa.name).trans hgetc))
    exact absurd (hsa.symm.trans hsc) (by decide)

end SearchIndex.Schema
