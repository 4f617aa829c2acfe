import SearchIndex.Definition.Mapping
import SearchIndex.Proofs.Definition.Frozen
import SearchIndex.Proofs.Outcome

/-!
# Where a field lands in the mapping document

The mapping document repeats the tree of the definition: under the key `properties` stand
the fragments of the fields, and the fragment of a compound field has a `properties` of
its own. `Definition.RenderedAs` says this without the recursion that puts the document
together, by walking from the top of the document (`Json.walk?`) along the names of a
path (`Path.route`).

The main result is `Definition.mapping_renderedAs`. It rests on one walk,
`Definition.walk?_properties`: descending into a compound field of the definition and
descending into its fragment keep step, because the properties of the inner definition
are written last and so replace whatever the options of the field had under that key.
-/

namespace SearchIndex

/-- The value that a list of keys leads to, each a member of the object before. -/
def Json.walk? (value : Json) : List String → Option Json
  | [] => some value
  | key :: rest => (value.member? key).bind (fun v => v.walk? rest)

/-- Walking along two lists of keys is walking along the first and on along the second. -/
theorem Json.walk?_append (value : Json) (keys more : List String) :
    value.walk? (keys ++ more) = (value.walk? keys).bind (fun v => v.walk? more) := by
  induction keys generalizing value with
  | nil => rfl
  | cons key rest ih =>
    rw [List.cons_append, walk?, walk?]
    cases value.member? key with
    | none => rfl
    | some v => exact ih v

/-- The keys that lead to the fragment of a field in a mapping document. -/
def Path.route (names : List String) : List String :=
  names.flatMap fun name => ["properties", name]

/-- The last name of a path is the last key of its route. -/
theorem Path.route_append_singleton (outer : List String) (name : String) :
    Path.route (outer ++ [name]) = (Path.route outer ++ ["properties"]) ++ [name] := by
  simp [Path.route]

/-- What makes a document the mapping document of a definition. -/
structure Definition.RenderedAs (d : Definition) (document : Document) : Prop where
  /-- Nothing stands beside the properties. -/
  keys_eq : document.keys = ["properties"]
  /-- The route of a path leads to the fragment of the field found there, as the first
  target of the definition that directly holds the field has it. -/
  fragment : ∀ p f, d.find? p = some f → ∃ owner fragment,
    d.within? (Path.segments p).dropLast = some owner ∧
    f.mapping owner.mainIndexable? = .ok fragment ∧
    (Json.object document).walk? (Path.route (Path.segments p)) = some (.object fragment)
  /-- The properties of every definition in the tree are those of its fields, in order. -/
  properties : ∀ outer e, d.within? outer = some e → ∃ properties,
    (Json.object document).walk? (Path.route outer ++ ["properties"]) =
      some (.object properties) ∧
    properties.keys = e.names ∧ e.names.Nodup

/-! ### One level -/

/-- The fragments of a list of fields stand under the names, in order, and a name finds
the fragment of the field it finds. -/
theorem Field.propertiesOf_spec {main : Option Indexable} {fields : List Field}
    {entries : List (String × Json)} (h : Field.propertiesOf main fields = .ok entries) :
    entries.map Prod.fst = fields.map Field.name ∧
      ∀ name f, fields.find? (fun f => f.name == name) = some f →
        ∃ fragment, f.mapping main = .ok fragment ∧
          entries.lookup name = some (.object fragment) := by
  induction fields generalizing entries with
  | nil =>
    cases h
    exact ⟨rfl, fun name f hf => by cases hf⟩
  | cons g rest ih =>
    rw [Field.propertiesOf_cons, Outcome.bind_eq_ok_iff] at h
    obtain ⟨own, hg, h⟩ := h
    obtain ⟨others, hrest, rfl⟩ := Outcome.map_eq_ok_iff.mp h
    -- the other fields are told by induction, and the first one by its own fragment
    obtain ⟨hnames, hfind⟩ := ih hrest
    refine ⟨by rw [List.map_cons, List.map_cons, hnames], fun name f hf => ?_⟩
    -- both look-ups stop at `g`, or neither does
    by_cases hname : g.name = name
    · subst hname
      rw [List.find?_cons_of_pos (by simp)] at hf
      obtain rfl : g = f := Option.some.inj hf
      exact ⟨own, hg, List.lookup_cons_self⟩
    · rw [List.find?_cons_of_neg (by simpa using hname)] at hf
      obtain ⟨fragment, hfragment, hlookup⟩ := hfind name f hf
      refine ⟨fragment, hfragment, ?_⟩
      rw [List.lookup_cons, beq_false_of_ne (Ne.symm hname), hlookup]

/-- The properties of the definition inside a compound field end its fragment. -/
theorem Field.properties_of_mapping {f : Field} {inner : Definition} {main : Option Indexable}
    {fragment : Document} (hn : f.nested = some inner) (h : f.mapping main = .ok fragment) :
    ∃ properties, inner.properties = .ok properties ∧
      fragment.get? "properties" = some (.object properties) := by
  rw [Field.mapping_of_nested hn, Outcome.bind_eq_ok_iff] at h
  obtain ⟨own, -, h⟩ := h
  obtain ⟨properties, hp, rfl⟩ := Outcome.map_eq_ok_iff.mp h
  exact ⟨properties, hp, by rw [Table.get?_insert, if_pos rfl]⟩

namespace Definition

variable {d e : Definition}

/-- The properties of a definition are the fragments of its fields, under their names and in order.
-/
theorem properties_spec {properties : Document} (h : d.properties = .ok properties) :
    properties.keys = d.names ∧ ∀ name f, d.field? name = some f →
      ∃ fragment, f.mapping d.mainIndexable? = .ok fragment ∧
        properties.get? name = some (.object fragment) := by
  rw [properties_eq, Outcome.map_eq_ok_iff] at h
  obtain ⟨entries, hentries, rfl⟩ := h
  exact Field.propertiesOf_spec hentries

/-! ### The walk -/

/-- **The walk through the document keeps step with the walk through the tree.** The
induction is on the names; what it carries from one level to the next is a document whose
`properties` are those of the definition that has been reached. -/
theorem walk?_properties {document properties : Document} {outer : List String}
    (hdocument : document.get? "properties" = some (.object properties))
    (hproperties : d.properties = .ok properties) (he : d.within? outer = some e) :
    ∃ reached, e.properties = .ok reached ∧
      (Json.object document).walk? (Path.route outer ++ ["properties"]) =
        some (.object reached) := by
  induction outer generalizing d document properties with
  | nil =>
    -- the document itself is the one of the definition
    obtain rfl : d = e := Option.some.inj he
    refine ⟨properties, hproperties, ?_⟩
    change (document.get? "properties").bind _ = _
    rw [hdocument]
    rfl
  | cons name rest ih =>
    -- the first name leads to a compound field, and its fragment ends with the properties inside
    obtain ⟨f, inner, hf, hn, hrest⟩ := within?_cons_eq_some_iff.mp he
    obtain ⟨fragment, hfragment, hget⟩ := (properties_spec hproperties).2 name f hf
    obtain ⟨properties', hproperties', hget'⟩ := Field.properties_of_mapping hn hfragment
    obtain ⟨reached, hreached, hwalk⟩ := ih hget' hproperties' hrest
    refine ⟨reached, hreached, ?_⟩
    -- two keys take the walk from the document to the fragment of `f`
    have hstep : (Json.object document).walk? ["properties", name] = some (.object fragment) := by
      change (document.get? "properties").bind _ = _
      rw [hdocument]
      change (properties.get? name).bind _ = _
      rw [hget]
      rfl
    have hroute : Path.route (name :: rest) ++ ["properties"]
        = ["properties", name] ++ (Path.route rest ++ ["properties"]) := rfl
    rw [hroute, Json.walk?_append, hstep, Option.bind_some, hwalk]

/-- **The mapping document repeats the tree of the definition.** Nothing is asked of the
names: a field whose name holds a dot has its place in the document as well, but no path
finds it. -/
theorem mapping_renderedAs {document : Document} (frozen : d.Frozen)
    (resolved : d.mapping = .ok document) : d.RenderedAs document := by
  rw [mapping, Outcome.map_eq_ok_iff] at resolved
  obtain ⟨properties, hproperties, rfl⟩ := resolved
  have hdocument : ((Table.empty : Document).insert "properties" (.object properties)).get?
      "properties" = some (.object properties) := by rw [Table.get?_insert, if_pos rfl]
  refine ⟨rfl, fun p f hf => ?_, fun outer e he => ?_⟩
  · -- the walk leads to the definition that holds the field, and one more key to the field
    obtain ⟨owner, howner, hfield, hsplit⟩ := exists_owner_of_find? hf
    obtain ⟨reached, hreached, hwalk⟩ := walk?_properties hdocument hproperties howner
    obtain ⟨fragment, hfragment, hget⟩ := (properties_spec hreached).2 _ f hfield
    refine ⟨owner, fragment, howner, hfragment, ?_⟩
    rw [← hsplit, Path.route_append_singleton, Json.walk?_append, hwalk, Option.bind_some]
    change (reached.get? _).bind _ = _
    rw [hget]
    rfl
  · -- the same walk leads to the properties of any definition in the tree
    obtain ⟨reached, hreached, hwalk⟩ := walk?_properties hdocument hproperties he
    exact ⟨reached, hwalk, (properties_spec hreached).1, (frozen.distinct.within? he).here⟩

/-- A target that knows the options of one field. -/
def knows (name field type : String) : Target :=
  .ofTable name .index ⟨[(field, .ofMembers [("type", .string type)])]⟩

/-- Where a shop is. -/
def place : Draft :=
  (Draft.mk ⟨[knows "Place" "city" "keyword"], some .index, [], .empty⟩).registerAll
    [.inferred "city"]

/-- A shop. Its place has options under keys that the mapping document needs. -/
def shop : Draft :=
  (Draft.mk ⟨[knows "Shop" "name" "text", knows "Old" "city" "text"], some .index, [],
    .empty⟩).registerAll
    [⟨"place", ⟨[("properties", .string "none"), ("type", .ofNat 3)]⟩, true, some place.freeze⟩,
      .inferred "name"]

/-- The mapping document of a shop. -/
def shopMapping : Document :=
  ⟨[("properties", .ofMembers
    [("place", .ofMembers
      [("properties", .ofMembers [("city", .ofMembers [("type", .string "keyword")])]),
        ("type", .string "nested")]),
      ("name", .ofMembers [("type", .string "text")])])]⟩

/-- The shop and its place come out of drafts. -/
theorem shop_frozen : shop.freeze.Frozen := by
  have hplace : place.Built :=
    (Draft.Built.ofTargets rfl).registerAll (by simp [Field.inferred])
  exact ((Draft.Built.ofTargets rfl).registerAll
    (by simpa [Field.inferred] using hplace.freeze)).freeze

/-- The mapping document of the shop, in which the options of the place have given way. -/
theorem shop_renderedAs : shop.freeze.Frozen ∧ shop.freeze.mapping = .ok shopMapping ∧
    shop.freeze.RenderedAs shopMapping :=
  ⟨shop_frozen, rfl, mapping_renderedAs shop_frozen rfl⟩

end Definition

end SearchIndex
