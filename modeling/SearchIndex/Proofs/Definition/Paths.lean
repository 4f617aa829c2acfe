import SearchIndex.Proofs.Definition.Frozen
import SearchIndex.Proofs.Definition.Site

/-!
# The expanded names of a definition

`Definition.expandedNames` joins names from the inside out, and `Definition.find?` takes a
path apart and walks from the outside in. For a definition whose names hold no dot the two
are inverse to each other, and the main result, `Definition.expandedNames_listed`, says
everything that a listing in preorder should satisfy (`Definition.ListedBy`): the paths
listed are those that find a field, none is listed twice, each is directly followed by the
paths inside it, and siblings keep their order.

Both recursions are compared with the sites of the definition. The expanded names are the
written paths of the sites (`Definition.expandedNames_eq_map_sites`), and since no name
holds a dot, reading them gives the paths back (`Definition.segments_path`). What is known
about the list of sites thus carries over to the list of texts.
-/

namespace SearchIndex

/-- `q` leads on from `p`. -/
def Path.IsInside (p q : String) : Prop := ∃ r, q = Path.join p r

/-- What makes a list of paths the listing of a definition in preorder. -/
structure Definition.ListedBy (d : Definition) (paths : List String) : Prop where
  /-- The paths are those under which a field is found. -/
  mem_iff : ∀ p, p ∈ paths ↔ (d.find? p).isSome
  /-- No path is listed twice. -/
  nodup : paths.Nodup
  /-- The last segment of a path is the name of the field. -/
  name_eq : ∀ p f, d.find? p = some f → (Path.segments p).getLast? = some f.name
  /-- A path is directly followed by all that lead on from it. -/
  block : ∀ p ∈ paths, ∃ before inside after, paths = before ++ p :: inside ++ after ∧
    (∀ q ∈ inside, Path.IsInside p q) ∧ ∀ q ∈ before ++ after, ¬ Path.IsInside p q
  /-- The fields of one definition are listed in the order of their registration. -/
  siblings : ∀ outer owner, d.within? outer = some owner →
    paths.filter (fun p => (Path.segments p).dropLast = outer) =
      owner.names.map (fun name => Path.ofSegments (outer ++ [name]))

namespace Definition

variable {d : Definition} {f : Field} {s : Site}

/-- The expanded names are the written paths of the sites. -/
theorem expandedNames_eq_map_sites (d : Definition) :
    d.expandedNames = d.sites.map (fun s => Path.ofSegments s.path) := by
  induction d using Definition.induction with
  | step d ih =>
    rw [expandedNames_eq_flatMap, sites_eq_flatMap, List.map_flatMap, List.flatMap_def,
      List.flatMap_def]
    congr 1
    -- field by field, each with all that is inside it
    refine List.map_congr_left fun f hf => ?_
    rw [Field.sites_eq, List.map_cons]
    cases hn : f.nested with
    | none =>
      -- a plain field is its only site, under its own name
      rw [Field.expandedNames_of_plain hn, Field.sitesInside_of_plain hn]; rfl
    | some inner =>
      rw [Field.expandedNames_of_nested hn, ih f hf inner hn, Field.sitesInside_of_nested hn,
        List.map_map, List.map_map]
      -- a site inside is not at the end of its path, so its name is joined in front
      have hjoin : ∀ s : Site, Path.ofSegments (s.below f.name).path
          = Path.join f.name (Path.ofSegments s.path) :=
        fun s => Path.ofSegments_cons f.name s.path_ne_nil
      simp only [Function.comp_def, hjoin]
      rfl

/-- No name on the way to a site holds a dot. -/
theorem DotFree.path (hdot : d.DotFree) (hs : s ∈ d.sites) :
    ∀ name ∈ s.path, Path.hasDot name = false := by
  obtain ⟨outer, owner, field⟩ := s
  intro name hname
  induction outer generalizing d with
  | nil =>
    -- the site is a field of the definition itself
    obtain ⟨rfl, hf⟩ := mem_sites_nil.mp hs
    obtain rfl : name = field.name := by simpa [Site.path] using hname
    exact hdot.here _ (List.mem_map_of_mem hf)
  | cons head rest ih =>
    -- the site lies inside a field, whose name comes first
    obtain ⟨f, hf, rfl, inner, hn, hs⟩ := mem_sites_cons.mp hs
    rcases List.mem_cons.mp hname with rfl | hname
    · exact hdot.here _ (List.mem_map_of_mem hf)
    · exact ih (hdot.inside hf hn) hs hname

/-- Reading the written path of a site gives the path back. -/
theorem segments_path (hdot : d.DotFree) (hs : s ∈ d.sites) :
    Path.segments (Path.ofSegments s.path) = s.path :=
  Path.segments_ofSegments s.path_ne_nil (hdot.path hs)

/-- A look-up by path finds the field of the site with that path. -/
theorem find?_eq_some_iff (hd : d.Distinct) {p : String} :
    d.find? p = some f ↔ ∃ s ∈ d.sites, s.path = Path.segments p ∧ s.field = f :=
  findSegments?_eq_some_iff hd

/-- A path is listed exactly if it finds a field. -/
theorem mem_expandedNames_iff (hd : d.Distinct) (hdot : d.DotFree) (p : String) :
    p ∈ d.expandedNames ↔ (d.find? p).isSome := by
  rw [expandedNames_eq_map_sites, List.mem_map, Option.isSome_iff_exists]
  constructor
  · -- a site has a field, and looking up its path finds it
    rintro ⟨s, hs, rfl⟩
    exact ⟨s.field, (find?_eq_some_iff hd).mpr ⟨s, hs, (segments_path hdot hs).symm, rfl⟩⟩
  · -- no dot matters here: writing what was read always gives the path
    rintro ⟨f, hf⟩
    obtain ⟨s, hs, hpath, -⟩ := (find?_eq_some_iff hd).mp hf
    exact ⟨s, hs, by rw [hpath, Path.ofSegments_segments]⟩

/-- Distinct paths stay distinct when they are written, since reading tells them apart. -/
theorem nodup_expandedNames (hd : d.Distinct) (hdot : d.DotFree) : d.expandedNames.Nodup := by
  have hmap : d.expandedNames.map Path.segments = d.sites.map Site.path := by
    rw [expandedNames_eq_map_sites, List.map_map]
    exact List.map_congr_left fun s hs => segments_path hdot hs
  exact List.Nodup.of_map Path.segments (hmap ▸ nodup_path_sites hd)

/-- Among the paths of a dot-free definition, leading on is continuing the names. -/
theorem isInside_ofSegments_iff {t : Site} (hdot : d.DotFree) (hs : s ∈ d.sites)
    (ht : t ∈ d.sites) :
    Path.IsInside (Path.ofSegments s.path) (Path.ofSegments t.path) ↔
      ∃ rest, rest ≠ [] ∧ t.path = s.path ++ rest := by
  constructor
  · rintro ⟨r, hr⟩
    refine ⟨Path.segments r, Path.segments_ne_nil r, ?_⟩
    have hsegments := congrArg Path.segments hr
    rwa [Path.segments_join, segments_path hdot hs, segments_path hdot ht] at hsegments
  · rintro ⟨rest, hne, hpath⟩
    exact ⟨Path.ofSegments rest, by rw [hpath, Path.ofSegments_append s.path_ne_nil hne]⟩

/-- A listed path is directly followed by the paths that lead on from it. -/
theorem expandedNames_block (hd : d.Distinct) (hdot : d.DotFree) {p : String}
    (hp : p ∈ d.expandedNames) :
    ∃ before inside after, d.expandedNames = before ++ p :: inside ++ after ∧
      (∀ q ∈ inside, Path.IsInside p q) ∧ ∀ q ∈ before ++ after, ¬ Path.IsInside p q := by
  rw [expandedNames_eq_map_sites] at hp ⊢
  obtain ⟨s, hs, rfl⟩ := List.mem_map.mp hp
  -- the block of the site, written out
  obtain ⟨before, inside, after, hsplit, hinside, hother⟩ := sites_block hd hs
  have hmem : ∀ t, t ∈ before ++ s :: inside ++ after → t ∈ d.sites := fun t ht => hsplit ▸ ht
  refine ⟨before.map (fun s => Path.ofSegments s.path),
    inside.map (fun s => Path.ofSegments s.path),
    after.map (fun s => Path.ofSegments s.path), by rw [hsplit]; simp, ?_, ?_⟩
  · -- what stands inside the block leads on
    intro q hq
    obtain ⟨t, ht, rfl⟩ := List.mem_map.mp hq
    exact (isInside_ofSegments_iff hdot hs (hmem t (by simp [ht]))).mpr (hinside t ht)
  · -- what stands outside does not, since its names do not continue those of the site
    intro q hq
    rw [← List.map_append] at hq
    obtain ⟨t, ht, rfl⟩ := List.mem_map.mp hq
    have htmem : t ∈ d.sites := by
      rcases List.mem_append.mp ht with ht | ht <;> exact hmem t (by simp [ht])
    intro hin
    obtain ⟨rest, -, hpath⟩ := (isInside_ofSegments_iff hdot hs htmem).mp hin
    exact hother t ht ⟨rest, hpath.symm⟩

/-- The paths of one level are listed in the order of registration. -/
theorem filter_expandedNames (hd : d.Distinct) (hdot : d.DotFree) {outer : List String}
    {owner : Definition} (he : d.within? outer = some owner) :
    d.expandedNames.filter (fun p => (Path.segments p).dropLast = outer) =
      owner.names.map (fun name => Path.ofSegments (outer ++ [name])) := by
  rw [expandedNames_eq_map_sites, List.filter_map]
  -- the names in front of the last are those that lead to the owner
  have hfilter : d.sites.filter
        ((fun p => decide ((Path.segments p).dropLast = outer)) ∘
          fun s => Path.ofSegments s.path)
      = d.sites.filter (fun s => s.outer = outer) := by
    refine List.filter_congr fun s hs => ?_
    rw [Function.comp_apply, segments_path hdot hs, Site.dropLast_path]
  rw [hfilter, filter_sites hd he, List.map_map, names, List.map_map]
  rfl

/-- **The expanded names list a definition in preorder.** -/
theorem expandedNames_listed (frozen : d.Frozen) (dotFree : d.DotFree) :
    d.ListedBy d.expandedNames where
  mem_iff := mem_expandedNames_iff frozen.distinct dotFree
  nodup := nodup_expandedNames frozen.distinct dotFree
  name_eq p f hf := by
    -- the path that finds the field is that of a site, which ends with the name
    obtain ⟨s, -, hpath, rfl⟩ := (find?_eq_some_iff frozen.distinct).mp hf
    rw [← hpath, Site.getLast?_path]
  block _ hp := expandedNames_block frozen.distinct dotFree hp
  siblings _ _ he := filter_expandedNames frozen.distinct dotFree he

/-- Where a publisher has its seat. -/
def seat : Definition :=
  (Draft.empty.registerAll [.typed "city" "keyword", .inferred "zip"]).freeze

/-- A publisher, whose seat has fields of its own. -/
def publisher : Definition :=
  (Draft.empty.registerAll
    [.inferred "name", ⟨"seat", .empty, false, some seat⟩, .inferred "phone"]).freeze

/-- A book; its title is registered twice. -/
def book : Definition :=
  (Draft.empty.registerAll
    [.inferred "title", ⟨"publisher", .empty, false, some publisher⟩,
      .typed "title" "text"]).freeze

/-- The book and what is inside it come out of drafts. -/
theorem book_frozen : book.Frozen := by
  have hseat : seat.Frozen :=
    Draft.Built.freeze (Draft.Built.empty.registerAll (by simp [Field.typed, Field.inferred]))
  have hpublisher : publisher.Frozen :=
    Draft.Built.freeze (Draft.Built.empty.registerAll (by simpa [Field.inferred] using hseat))
  exact Draft.Built.freeze (Draft.Built.empty.registerAll
    (by simpa [Field.typed, Field.inferred] using hpublisher))

/-- No name in the book holds a dot. -/
theorem book_dotFree : book.DotFree := by
  have hseat : seat.DotFree :=
    .of_fields [.typed "city" "keyword", .inferred "zip"] rfl (by decide)
      (by simp [Field.typed, Field.inferred])
  have hpublisher : publisher.DotFree :=
    .of_fields [.inferred "name", ⟨"seat", .empty, false, some seat⟩, .inferred "phone"] rfl
      (by decide) (by simpa [DotFree, Field.inferred] using hseat)
  exact .of_fields [.typed "title" "text", ⟨"publisher", .empty, false, some publisher⟩] rfl
    (by decide) (by simpa [DotFree, Field.typed] using hpublisher)

/-- The fields of the book, each directly followed by those inside it. -/
theorem book_listed : book.Frozen ∧ book.DotFree ∧
    book.ListedBy ["title", "publisher", "publisher.name", "publisher.seat",
      "publisher.seat.city", "publisher.seat.zip", "publisher.phone"] :=
  ⟨book_frozen, book_dotFree, expandedNames_listed book_frozen book_dotFree⟩

end Definition

end SearchIndex
