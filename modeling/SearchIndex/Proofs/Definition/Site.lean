import SearchIndex.Proofs.Definition.Tree

/-!
# The places of fields in a definition

A field of a tree is more than its contents: where it stands decides its path and the
target that answers for it. A `Site` is a field together with the definition that
directly holds it and the names that lead there, and `Definition.sites` lists the sites
of a definition in preorder.

Where names are distinct, the list is pinned down without mentioning the recursion that
makes it:

* `Definition.mem_sites_iff` — it holds the fields of every definition that a list of
  names leads to, and nothing else;
* `Definition.nodup_path_sites` — no two sites have the same path;
* `Definition.sites_block` — a site is directly followed by everything inside it;
* `Definition.filter_sites` — the fields of one definition come in its own order.
-/

namespace SearchIndex

/-- A field, the definition that directly holds it, and the names that lead to that
definition. -/
structure Site where
  outer : List String
  owner : Definition
  field : Field

namespace Site

/-- The names that lead to the field, its own name last. -/
def path (s : Site) : List String := s.outer ++ [s.field.name]

/-- The site as it is seen from around the field `name`. -/
def below (name : String) (s : Site) : Site := { s with outer := name :: s.outer }

@[simp] theorem path_below (name : String) (s : Site) :
    (s.below name).path = name :: s.path := rfl

@[simp] theorem outer_below (name : String) (s : Site) :
    (s.below name).outer = name :: s.outer := rfl

/-- A path has at least the name of its field. -/
theorem path_ne_nil (s : Site) : s.path ≠ [] := by simp [path]

@[simp] theorem dropLast_path (s : Site) : s.path.dropLast = s.outer := by simp [path]

@[simp] theorem getLast?_path (s : Site) : s.path.getLast? = some s.field.name := by
  simp [path]

/-- A path that starts elsewhere does not continue another. -/
theorem not_prefix_of_head? {s : Site} {name : String} {more : List String}
    (h : s.path.head? ≠ some name) : ¬ name :: more <+: s.path := by
  rintro ⟨rest, hrest⟩
  apply h
  rw [← hrest]
  rfl

/-- From around a field, one path continues another exactly if it does so inside. -/
theorem prefix_below_iff {s : Site} {name : String} {more : List String} :
    name :: more <+: (s.below name).path ↔ more <+: s.path := by
  rw [path_below, List.cons_prefix_cons]
  exact and_iff_right rfl

end Site

mutual

/-- The sites of a field that `owner` holds: its own, then those inside it. -/
def Field.sites (owner : Definition) : Field → List Site
  | ⟨name, options, inference, none⟩ => [⟨[], owner, ⟨name, options, inference, none⟩⟩]
  | ⟨name, options, inference, some inner⟩ =>
    ⟨[], owner, ⟨name, options, inference, some inner⟩⟩ :: inner.sites.map (Site.below name)

/-- The sites of a definition, in preorder. -/
def Definition.sites : Definition → List Site
  | ⟨targets, mode, fields, options⟩ =>
    Field.sitesOf ⟨targets, mode, fields, options⟩ fields

/-- The sites of a list of fields that `owner` holds. -/
def Field.sitesOf (owner : Definition) : List Field → List Site
  | [] => []
  | f :: rest => f.sites owner ++ Field.sitesOf owner rest

end

/-- The sites inside a field, seen from around it. -/
def Field.sitesInside (f : Field) : List Site :=
  match f.nested with
  | none => []
  | some inner => inner.sites.map (Site.below f.name)

theorem Field.sitesInside_of_plain {f : Field} (h : f.nested = none) : f.sitesInside = [] := by
  rw [Field.sitesInside, h]

theorem Field.sitesInside_of_nested {f : Field} {inner : Definition}
    (h : f.nested = some inner) : f.sitesInside = inner.sites.map (Site.below f.name) := by
  rw [Field.sitesInside, h]

/-- A site inside a field is one of the definition inside, with one more name in front. -/
theorem Field.mem_sitesInside {f : Field} {s : Site} :
    s ∈ f.sitesInside ↔
      ∃ inner, f.nested = some inner ∧ ∃ t ∈ inner.sites, t.below f.name = s := by
  cases hn : f.nested with
  | none => simp [Field.sitesInside_of_plain hn]
  | some inner => simp [Field.sitesInside_of_nested hn]

/-- The sites of a field are its own and those inside it. -/
theorem Field.sites_eq (owner : Definition) (f : Field) :
    f.sites owner = ⟨[], owner, f⟩ :: f.sitesInside := by
  obtain ⟨name, options, inference, nested⟩ := f
  cases nested <;> rfl

/-- The sites of a list of fields are those of its fields, one after the other. -/
theorem Field.sitesOf_eq_flatMap (owner : Definition) (fields : List Field) :
    Field.sitesOf owner fields = fields.flatMap (Field.sites owner) := by
  induction fields with
  | nil => rfl
  | cons f rest ih => rw [Field.sitesOf, ih, List.flatMap_cons]

namespace Definition

variable {d e : Definition} {f : Field} {s : Site}

theorem sites_eq_flatMap (d : Definition) : d.sites = d.fields.flatMap (Field.sites d) := by
  obtain ⟨targets, mode, fields, options⟩ := d
  exact Field.sitesOf_eq_flatMap _ fields

/-- A site is a field of the definition or lies inside one. -/
theorem mem_sites :
    s ∈ d.sites ↔ ∃ f ∈ d.fields, s = ⟨[], d, f⟩ ∨ s ∈ f.sitesInside := by
  simp only [sites_eq_flatMap, List.mem_flatMap, Field.sites_eq, List.mem_cons]

/-- Every path of a field's sites starts with its name. -/
theorem head?_path_of_mem_sites {owner : Definition} (hs : s ∈ f.sites owner) :
    s.path.head? = some f.name := by
  rw [Field.sites_eq, List.mem_cons, Field.mem_sitesInside] at hs
  obtain rfl | ⟨inner, -, t, -, rfl⟩ := hs <;> rfl

/-- The sites of a definition whose names are distinct, cut around those of one field. The
sites before and behind have paths that start elsewhere. -/
theorem sites_split (hd : d.names.Nodup) (hf : f ∈ d.fields) :
    ∃ before after, d.sites = before ++ ⟨[], d, f⟩ :: f.sitesInside ++ after ∧
      ∀ s ∈ before ++ after, s.path.head? ≠ some f.name := by
  obtain ⟨before, after, hsplit, hother⟩ := fields_split hd hf
  refine ⟨before.flatMap (Field.sites d), after.flatMap (Field.sites d), ?_, ?_⟩
  · -- the sites are those of the fields, and the fields are cut around this one
    rw [sites_eq_flatMap, hsplit, List.flatMap_append, List.flatMap_cons, Field.sites_eq d f,
      List.append_assoc]
  · -- a site before or behind belongs to a field of another name
    intro s hs heq
    rw [← List.flatMap_append, List.mem_flatMap] at hs
    obtain ⟨g, hg, hs⟩ := hs
    rw [head?_path_of_mem_sites hs] at heq
    exact hother g hg (Option.some.inj heq)

/-! ### What the list holds -/

/-- The sites that no name leads to are the fields of the definition itself. -/
theorem mem_sites_nil {owner : Definition} :
    ⟨[], owner, f⟩ ∈ d.sites ↔ owner = d ∧ f ∈ d.fields := by
  rw [mem_sites]
  constructor
  · -- a site that lies inside a field has a name in front, which this one has not
    rintro ⟨g, hg, h | h⟩
    · obtain ⟨rfl, rfl⟩ : owner = d ∧ f = g := by simpa using h
      exact ⟨rfl, hg⟩
    · obtain ⟨inner, -, t, -, ht⟩ := Field.mem_sitesInside.mp h
      exact absurd (congrArg Site.outer ht) (by simp)
  · rintro ⟨rfl, hf⟩
    exact ⟨f, hf, Or.inl rfl⟩

/-- All other sites lie inside the field that the first name belongs to. -/
theorem mem_sites_cons {name : String} {rest : List String} {owner : Definition} :
    ⟨name :: rest, owner, f⟩ ∈ d.sites ↔
      ∃ g ∈ d.fields, g.name = name ∧ ∃ inner, g.nested = some inner ∧
        ⟨rest, owner, f⟩ ∈ inner.sites := by
  rw [mem_sites]
  constructor
  · -- a field of the definition itself has no name in front
    rintro ⟨g, hg, h | h⟩
    · exact absurd (congrArg Site.outer h) (by simp)
    · obtain ⟨inner, hn, ⟨outer, owner', f'⟩, ht, heq⟩ := Field.mem_sitesInside.mp h
      obtain ⟨⟨rfl, rfl⟩, rfl, rfl⟩ :
          (g.name = name ∧ outer = rest) ∧ owner' = owner ∧ f' = f := by
        simpa [Site.below] using heq
      exact ⟨g, hg, rfl, inner, hn, ht⟩
  · rintro ⟨g, hg, rfl, inner, hn, ht⟩
    exact ⟨g, hg, Or.inr (Field.mem_sitesInside.mpr ⟨inner, hn, _, ht, rfl⟩)⟩

/-- **The sites are the fields of all definitions that names lead to.** -/
theorem mem_sites_iff (hd : d.Distinct) :
    s ∈ d.sites ↔ d.within? s.outer = some s.owner ∧ s.field ∈ s.owner.fields := by
  obtain ⟨outer, owner, field⟩ := s
  induction outer generalizing d with
  | nil =>
    -- no name leads away from the definition
    rw [mem_sites_nil]
    constructor
    · rintro ⟨rfl, hfield⟩
      exact ⟨rfl, hfield⟩
    · rintro ⟨howner, hfield⟩
      obtain rfl : d = owner := Option.some.inj howner
      exact ⟨rfl, hfield⟩
  | cons name rest ih =>
    -- the first name belongs to a compound field, inside which the rest leads on
    rw [mem_sites_cons]
    constructor
    · rintro ⟨f, hf, rfl, inner, hn, hs⟩
      obtain ⟨howner, hfield⟩ := (ih (hd.inside hf hn)).mp hs
      exact ⟨within?_cons_eq_some_iff.mpr ⟨f, inner, field?_of_mem hd.here hf, hn, howner⟩,
        hfield⟩
    · rintro ⟨howner, hfield⟩
      obtain ⟨f, inner, hf, hn, howner⟩ := within?_cons_eq_some_iff.mp howner
      have hmem := mem_fields_of_field? hf
      exact ⟨f, hmem, name_of_field? hf, inner, hn,
        (ih (hd.inside hmem hn)).mpr ⟨howner, hfield⟩⟩

/-- A look-up by names finds the field of the site with that path. -/
theorem findSegments?_eq_some_iff (hd : d.Distinct) {names : List String} :
    d.findSegments? names = some f ↔ ∃ s ∈ d.sites, s.path = names ∧ s.field = f := by
  constructor
  · -- all names but the last lead to the owner, and the last is that of the field
    intro h
    have hne : names ≠ [] := by
      rintro rfl
      cases h
    rw [← List.dropLast_append_getLast hne, findSegments?_append_singleton,
      Option.bind_eq_some_iff] at h
    obtain ⟨owner, howner, hf⟩ := h
    refine ⟨⟨names.dropLast, owner, f⟩, (mem_sites_iff hd).mpr ⟨howner, mem_fields_of_field? hf⟩,
      ?_, rfl⟩
    rw [Site.path, name_of_field? hf, List.dropLast_append_getLast hne]
  · -- the other way round, a site is looked up by its names
    rintro ⟨s, hs, rfl, rfl⟩
    obtain ⟨howner, hfield⟩ := (mem_sites_iff hd).mp hs
    rw [Site.path, findSegments?_append_singleton, howner, Option.bind_some]
    exact field?_of_mem (hd.within? howner).here hfield

/-! ### How the list is ordered -/

/-- **No two sites have the same path.** -/
theorem nodup_path_sites (hd : d.Distinct) : (d.sites.map Site.path).Nodup := by
  induction d using Definition.induction with
  | step d ih =>
    rw [sites_eq_flatMap, List.map_flatMap, List.nodup_flatMap]
    constructor
    · -- within one field: its own path is the shortest, and those inside are distinct
      intro f hf
      rw [Field.sites_eq, List.map_cons, List.nodup_cons]
      cases hn : f.nested with
      | none => simp [Field.sitesInside_of_plain hn]
      | some inner =>
        rw [Field.sitesInside_of_nested hn, List.map_map]
        constructor
        · -- a path inside is longer than that of the field itself
          intro hmem
          obtain ⟨t, -, ht⟩ := List.mem_map.mp hmem
          exact t.path_ne_nil (List.cons.inj ht).2
        · -- one more name in front of all of them keeps them distinct
          have hinner := ih f hf inner hn (hd.inside hf hn)
          have hcons : Site.path ∘ Site.below f.name = List.cons f.name ∘ Site.path := rfl
          rw [hcons, ← List.map_map]
          exact hinner.map List.cons_injective
    · -- across fields: the paths start with different names
      refine (List.pairwise_map.mp hd.here).imp fun {f g} hne => ?_
      show List.Disjoint ((f.sites d).map Site.path) ((g.sites d).map Site.path)
      intro names hnamesf hnamesg
      obtain ⟨s, hs, rfl⟩ := List.mem_map.mp hnamesf
      obtain ⟨t, ht, heq⟩ := List.mem_map.mp hnamesg
      have hhead := head?_path_of_mem_sites ht
      rw [heq, head?_path_of_mem_sites hs] at hhead
      exact hne (Option.some.inj hhead)

/-- **A site is directly followed by everything inside it.** The paths of the sites behind
it up to some place continue its own, and no other path does. -/
theorem sites_block (hd : d.Distinct) (hs : s ∈ d.sites) :
    ∃ before inside after, d.sites = before ++ s :: inside ++ after ∧
      (∀ t ∈ inside, ∃ rest, rest ≠ [] ∧ t.path = s.path ++ rest) ∧
      ∀ t ∈ before ++ after, ¬ s.path <+: t.path := by
  obtain ⟨outer, owner, field⟩ := s
  induction outer generalizing d with
  | nil =>
    -- the definition itself holds the field, and its block are the sites inside it
    obtain ⟨howner, hfield⟩ := (mem_sites_iff hd).mp hs
    obtain rfl : d = owner := Option.some.inj howner
    obtain ⟨before, after, hsplit, hother⟩ := sites_split hd.here hfield
    refine ⟨before, field.sitesInside, after, hsplit, ?_, ?_⟩
    · intro t ht
      obtain ⟨inner, -, u, -, rfl⟩ := Field.mem_sitesInside.mp ht
      exact ⟨u.path, u.path_ne_nil, rfl⟩
    · exact fun t ht => Site.not_prefix_of_head? (hother t ht)
  | cons name rest ih =>
    -- the site lies inside a field `f`, and its block is found there first
    obtain ⟨howner, hfield⟩ := (mem_sites_iff hd).mp hs
    obtain ⟨f, inner, hf, hn, howner⟩ := within?_cons_eq_some_iff.mp howner
    obtain rfl := name_of_field? hf
    have hmem := mem_fields_of_field? hf
    have hdi := hd.inside hmem hn
    obtain ⟨before, after, hsplit, hother⟩ := sites_split hd.here hmem
    obtain ⟨before', inside, after', hsplit', hinside, hother'⟩ :=
      ih hdi ((mem_sites_iff hdi).mpr ⟨howner, hfield⟩)
    -- seen from around `f`, it stands between the sites of the fields before and behind
    refine ⟨before ++ ⟨[], d, f⟩ :: before'.map (Site.below f.name),
      inside.map (Site.below f.name), after'.map (Site.below f.name) ++ after, ?_, ?_, ?_⟩
    · rw [hsplit, Field.sitesInside_of_nested hn, hsplit']
      simp [Site.below]
    · intro t ht
      obtain ⟨u, hu, rfl⟩ := List.mem_map.mp ht
      obtain ⟨more, hne, hpath⟩ := hinside u hu
      refine ⟨more, hne, ?_⟩
      rw [Site.path_below, hpath]
      rfl
    · intro t ht
      simp only [List.mem_append, List.mem_cons, List.mem_map] at ht
      rcases ht with (ht | rfl | ⟨u, hu, rfl⟩) | ⟨u, hu, rfl⟩ | ht
      · -- a site of a field before
        exact Site.not_prefix_of_head? (hother t (List.mem_append_left _ ht))
      · -- the path of `f` itself is too short
        intro hpre
        have hlen := hpre.length_le
        simp [Site.path] at hlen
      · -- a site inside the same field, before or behind the block
        exact fun hpre =>
          hother' u (List.mem_append_left _ hu) (Site.prefix_below_iff.mp hpre)
      · exact fun hpre =>
          hother' u (List.mem_append_right _ hu) (Site.prefix_below_iff.mp hpre)
      · exact Site.not_prefix_of_head? (hother t (List.mem_append_right _ ht))

/-- **The fields of one definition come in its own order.** -/
theorem filter_sites (hd : d.Distinct) {outer : List String} (he : d.within? outer = some e) :
    d.sites.filter (fun s => s.outer = outer) = e.fields.map (fun f => ⟨outer, e, f⟩) := by
  induction outer generalizing d with
  | nil =>
    obtain rfl : d = e := Option.some.inj he
    rw [sites_eq_flatMap, List.filter_flatMap]
    -- every field keeps its own site and loses those inside
    have hone : ∀ f : Field, (f.sites d).filter (fun s => s.outer = []) = [⟨[], d, f⟩] := by
      intro f
      rw [Field.sites_eq, List.filter_cons_of_pos (by simp), List.filter_eq_nil_iff.mpr]
      intro s hs
      obtain ⟨inner, -, t, -, rfl⟩ := Field.mem_sitesInside.mp hs
      simp
    simp only [hone]
    exact (List.map_eq_flatMap ..).symm
  | cons name rest ih =>
    obtain ⟨f, inner, hf, hn, hrest⟩ := within?_cons_eq_some_iff.mp he
    obtain rfl := name_of_field? hf
    have hmem := mem_fields_of_field? hf
    obtain ⟨before, after, hsplit, hother⟩ := sites_split hd.here hmem
    -- all that stays lies inside `f`
    have hnone : ∀ part : List Site, (∀ s ∈ part, s.path.head? ≠ some f.name) →
        part.filter (fun s => s.outer = f.name :: rest) = [] := by
      intro part hpart
      rw [List.filter_eq_nil_iff]
      intro s hs houter
      exact hpart s hs (by simp [Site.path, of_decide_eq_true houter])
    rw [hsplit, List.append_assoc, List.filter_append, List.cons_append,
      List.filter_cons_of_neg (by simp), List.filter_append,
      hnone before (fun s hs => hother s (List.mem_append_left _ hs)),
      hnone after (fun s hs => hother s (List.mem_append_right _ hs)),
      List.nil_append, List.append_nil, Field.sitesInside_of_nested hn, List.filter_map]
    have hcomp : (fun s : Site => decide (s.outer = f.name :: rest)) ∘ Site.below f.name
        = fun s => decide (s.outer = rest) := by
      funext s
      simp
    rw [hcomp, ih (hd.inside hmem hn) hrest, List.map_map]
    rfl

end Definition

end SearchIndex
