import SearchIndex.Proofs.Definition.Rendering
import SearchIndex.Proofs.Definition.Site
import SearchIndex.Proofs.Table
import SearchIndex.Proofs.Table.Order

/-!
# Which fragments have a type

An index stores a field by the `type` of its fragment. There are three places where a
fragment may have it from: the field's own options, the word for a nested field, and the
answer of a target. The last two serve fields that declare no type, which is to say that
their options have no text under `type`.

They do not serve all of them. What a field itself says is written over the answer of the
target, whatever it is, so that a `type` that is no text (`Field.HidesType`) counts as
undeclared and still takes the place of the inferred one. A compound field with the same
options has it replaced. The main result, `Definition.mapping_typed`, says that there is no
other case: if targets answer with a type, then every fragment has one but those of fields
that hide it, and there stands what the field says. A definition with such a field
is `Definition.track`.
-/

namespace SearchIndex

/-- The document has a text under `type`. -/
def Document.IsTyped (document : Document) : Prop :=
  ∃ type, document.get? "type" = some (.string type)

/-- The field has to be inferred, but its options have something under `type`. -/
def Field.HidesType (f : Field) : Prop :=
  f.nested = none ∧ f.declaredType? = none ∧ (f.options.get? "type").isSome

/-- Whenever inference succeeds, its answer has a type. -/
def Indexable.AnswersTyped (target : Indexable) : Prop :=
  ∀ name answer, target.infer name = .ok answer → answer.IsTyped

/-- All targets of the tree answer with a type. -/
def Definition.AnswersTyped (d : Definition) : Prop :=
  d.Everywhere fun e => ∀ t ∈ e.targets, ∀ target, t.indexable = some target → target.AnswersTyped

/-! ### One field -/

namespace Field

variable {f : Field} {main : Option Indexable} {own fragment : Document}

/-- A type is declared by a text in the options and by nothing else. -/
theorem declaredType?_eq_some_iff {type : String} :
    f.declaredType? = some type ↔ f.options.get? "type" = some (.string type) := by
  rw [declaredType?, Option.bind_eq_some_iff]
  constructor
  · rintro ⟨value, hvalue, htext⟩
    cases value with
    | string text =>
      obtain rfl : text = type := Option.some.inj htext
      exact hvalue
    | _ => cases htext
  · intro h
    exact ⟨.string type, h, rfl⟩

/-- What hides a type is not one. -/
theorem HidesType.not_isTyped (h : f.HidesType) : ¬ f.options.IsTyped := by
  rintro ⟨type, htype⟩
  have hdeclared := declaredType?_eq_some_iff.mpr htype
  rw [h.2.1] at hdeclared
  cases hdeclared

/-- Inference that succeeds writes the options of the field over the answer of a target. -/
theorem infer_eq_ok_iff :
    f.infer main = .ok own ↔ ∃ target answer, main = some target ∧
      target.infer f.name = .ok answer ∧ answer.insertAll f.options.entries = own := by
  cases main with
  | none => simp [infer]
  | some target =>
    cases hi : target.infer f.name with
    | ok answer =>
      simp [infer, hi]
    | error e =>
      -- no failure of a target is turned into a success
      cases e <;> simp [infer, hi]

/-- The properties of inner fields leave the type alone. -/
theorem get?_type_of_mapping (h : f.mapping main = .ok fragment) :
    ∃ own, f.ownMapping main = .ok own ∧ fragment.get? "type" = own.get? "type" := by
  cases hn : f.nested with
  | none =>
    rw [mapping_of_plain hn] at h
    exact ⟨fragment, h, rfl⟩
  | some inner =>
    rw [mapping_of_nested hn, Outcome.bind_eq_ok_iff] at h
    obtain ⟨own, hown, h⟩ := h
    obtain ⟨properties, -, rfl⟩ := Outcome.map_eq_ok_iff.mp h
    -- the properties are written under another key
    exact ⟨own, hown, by rw [Table.get?_insert, if_neg (by decide)]⟩

/-- A fragment has a type, unless the field hides it. -/
theorem isTyped_of_mapping (answers : ∀ target ∈ main, target.AnswersTyped)
    (h : f.mapping main = .ok fragment) (hshown : ¬ f.HidesType) : fragment.IsTyped := by
  obtain ⟨own, hown, hsame⟩ := get?_type_of_mapping h
  rw [Document.IsTyped, hsame]
  cases ht : f.declaredType? with
  | some type =>
    -- the field says it itself
    rw [ownMapping_of_declared main ht] at hown
    obtain rfl := Except.ok.inj hown
    exact ⟨type, declaredType?_eq_some_iff.mp ht⟩
  | none =>
    cases hn : f.nested with
    | some inner =>
      -- the options have no type, and the word for a nested field is written
      rw [ownMapping_of_compound main ht hn] at hown
      obtain rfl := Except.ok.inj hown
      exact ⟨"nested", by rw [Table.get?_insert, if_pos rfl]⟩
    | none =>
      -- the target says it, and no option of the field is written over it
      have hinfer : f.infer main = .ok own := by
        rw [ownMapping_of_plain main ht hn] at hown
        split at hown
        · exact hown
        · cases hown
      obtain ⟨target, answer, hmain, hanswer, rfl⟩ := infer_eq_ok_iff.mp hinfer
      have hfree : "type" ∉ f.options.entries.map Prod.fst := fun hmem =>
        hshown ⟨hn, ht, Table.mem_keys_iff.mp hmem⟩
      obtain ⟨type, htype⟩ := answers target hmain f.name answer hanswer
      exact ⟨type, by rw [Table.get?_insertAll_of_notMem answer hfree, htype]⟩

/-- Where a field hides the type, the fragment has what the field says. -/
theorem get?_type_of_hidesType (h : f.mapping main = .ok fragment) (hides : f.HidesType)
    (hkeys : f.options.keys.Nodup) : fragment.get? "type" = f.options.get? "type" := by
  obtain ⟨hn, ht, hsome⟩ := hides
  obtain ⟨value, hvalue⟩ := Option.isSome_iff_exists.mp hsome
  -- a field that hides a type is plain and undeclared, so it is inferred
  rw [mapping_of_plain hn, ownMapping_of_plain main ht hn] at h
  split at h
  · obtain ⟨target, answer, -, -, rfl⟩ := infer_eq_ok_iff.mp h
    rw [Table.get?_insertAll answer hkeys]
    -- the options of the field are written last, and they have the key
    change (f.options.get? "type").or _ = _
    rw [hvalue, Option.some_or]
  · cases h

end Field

/-! ### The whole definition -/

namespace Definition

variable {d : Definition} {s : Site} {document : Document}

theorem AnswersTyped.of_mem_sites (h : d.AnswersTyped) (hd : d.Distinct) (hs : s ∈ d.sites) :
    ∀ target ∈ s.owner.mainIndexable?, target.AnswersTyped := by
  intro target htarget
  have howner := (h.within? ((mem_sites_iff hd).mp hs).1).here
  obtain ⟨t, ht, hindexable⟩ := Option.bind_eq_some_iff.mp htarget
  exact howner t (List.mem_of_head? ht) target hindexable

/-- Every site has its fragment in the document, at the end of its route. -/
theorem exists_fragment (hd : d.Distinct) (resolved : d.mapping = .ok document)
    (hs : s ∈ d.sites) : ∃ fragment, s.field.mapping s.owner.mainIndexable? = .ok fragment ∧
      (Json.object document).walk? (Path.route s.path) = some (.object fragment) := by
  rw [mapping, Outcome.map_eq_ok_iff] at resolved
  obtain ⟨properties, hproperties, rfl⟩ := resolved
  obtain ⟨howner, hfield⟩ := (mem_sites_iff hd).mp hs
  have hdocument : ((Table.empty : Document).insert "properties" (.object properties)).get?
      "properties" = some (.object properties) := by rw [Table.get?_insert, if_pos rfl]
  -- walking down to the owner, whose properties are those of its fields
  obtain ⟨reached, hreached, hwalk⟩ := walk?_properties hdocument hproperties howner
  obtain ⟨fragment, hfragment, hget⟩ :=
    (properties_spec hreached).2 _ _ (field?_of_mem (hd.within? howner).here hfield)
  refine ⟨fragment, hfragment, ?_⟩
  rw [Site.path, Path.route_append_singleton, Json.walk?_append, hwalk, Option.bind_some]
  change (reached.get? _).bind _ = _
  rw [hget]
  rfl

/-- **Which fragments have a type.** Let the targets of a tree answer with a type. If the
mapping succeeds, then the fragment of a field, at any depth, has a type unless the field
hides it; and if it does, the fragment has what the field says, which is none. -/
theorem mapping_typed (frozen : d.Frozen) (answers : d.AnswersTyped)
    (resolved : d.mapping = .ok document) :
    ∀ s ∈ d.sites, ∃ fragment : Document,
      (Json.object document).walk? (Path.route s.path) = some (.object fragment) ∧
      (¬ s.field.HidesType → fragment.IsTyped) ∧
      (s.field.HidesType → s.field.options.keys.Nodup →
        fragment.get? "type" = s.field.options.get? "type" ∧ ¬ fragment.IsTyped) := by
  intro s hs
  have hd : d.Distinct := frozen.distinct
  obtain ⟨fragment, hfragment, hwalk⟩ := exists_fragment hd resolved hs
  refine ⟨fragment, hwalk, fun hshown => ?_, fun hides hkeys => ?_⟩
  · exact Field.isTyped_of_mapping (answers.of_mem_sites hd hs) hfragment hshown
  · have hsame := Field.get?_type_of_hidesType hfragment hides hkeys
    refine ⟨hsame, fun htyped => hides.not_isTyped ?_⟩
    rwa [Document.IsTyped, hsame] at htyped

/-- A target that answers from a table has the types that the table has. -/
theorem answersTyped_lookup {name : String} {mode : Mode} {fields : Document}
    (h : ∀ field (options : Document), fields.get? field = some (.object options) →
      options.IsTyped) :
    Indexable.AnswersTyped ⟨mode, Indexable.lookup name fields⟩ := by
  intro field answer hanswer
  change Indexable.lookup name fields field = .ok answer at hanswer
  rw [Indexable.lookup] at hanswer
  split at hanswer
  · next options hoptions =>
    obtain rfl := Except.ok.inj hanswer
    exact h field options hoptions
  · cases hanswer
  · cases hanswer

/-- What is known of the fields of a track. -/
def trackFields : Document :=
  ⟨[("title", .ofMembers [("type", .string "text")]),
    ("length", .ofMembers [("type", .string "integer")])]⟩

/-- A track. Both fields are inferred, but the options of one have a type that is null. -/
def track : Definition :=
  ((Draft.mk ⟨[.ofTable "Track" .index trackFields], some .index, [], .empty⟩).registerAll
    [.inferred "title", ⟨"length", ⟨[("type", .null)]⟩, true, none⟩]).freeze

/-- The mapping document of a track. -/
def trackMapping : Document :=
  ⟨[("properties", .ofMembers
    [("title", .ofMembers [("type", .string "text")]),
      ("length", .ofMembers [("type", .null)])])]⟩

theorem track_frozen : track.Frozen :=
  ((Draft.Built.ofTargets rfl).registerAll (by simp [Field.inferred])).freeze

theorem track_answersTyped : track.AnswersTyped := by
  have htable : Indexable.AnswersTyped ⟨.index, Indexable.lookup "Track" trackFields⟩ := by
    refine answersTyped_lookup fun field options hoptions => ?_
    have hnodup : trackFields.keys.Nodup := by decide
    have hmem := (Table.get?_eq_some_iff hnodup).mp hoptions
    simp only [trackFields, Json.ofMembers, List.mem_cons, Prod.mk.injEq, Json.object.injEq,
      List.not_mem_nil, or_false] at hmem
    obtain ⟨-, rfl⟩ | ⟨-, rfl⟩ := hmem
    · exact ⟨"text", rfl⟩
    · exact ⟨"integer", rfl⟩
  refine .of_fields [.inferred "title", ⟨"length", ⟨[("type", .null)]⟩, true, none⟩] rfl ?_
    (by simp [Field.inferred])
  intro t ht target htarget
  obtain rfl := List.mem_singleton.mp ht
  obtain rfl := Option.some.inj htarget
  exact htable

/-- **Not every fragment has a type** where targets answer with one. -/
theorem not_forall_isTyped : ¬ ∀ (d : Definition) (document : Document),
    d.Frozen → d.AnswersTyped → d.mapping = .ok document →
    ∀ s ∈ d.sites, ∃ fragment : Document,
      (Json.object document).walk? (Path.route s.path) = some (.object fragment) ∧
        fragment.IsTyped := by
  intro h
  have hsite : ⟨[], track, ⟨"length", ⟨[("type", .null)]⟩, true, none⟩⟩ ∈ track.sites :=
    List.mem_cons_of_mem _ List.mem_cons_self
  obtain ⟨fragment, hfragment, type, htype⟩ :=
    h track trackMapping track_frozen track_answersTyped rfl _ hsite
  -- the fragment of the length is the one that the document shows, and null is no text
  obtain rfl : ⟨[("type", .null)]⟩ = fragment := Json.object.inj (Option.some.inj hfragment)
  cases htype

/-- The title of a track has its type, and its length has none. -/
theorem track_typed : track.Frozen ∧ track.AnswersTyped ∧ track.mapping = .ok trackMapping ∧
    (∃ title : Document, (Json.object trackMapping).walk? ["properties", "title"] =
      some (.object title) ∧ title.IsTyped) ∧
    ∃ length : Document, (Json.object trackMapping).walk? ["properties", "length"] =
      some (.object length) ∧ length.get? "type" = some .null ∧ ¬ length.IsTyped := by
  have hresolved : track.mapping = .ok trackMapping := rfl
  have hsites := mapping_typed track_frozen track_answersTyped hresolved
  have htitle : ⟨[], track, .inferred "title"⟩ ∈ track.sites := List.mem_cons_self
  have hlength : ⟨[], track, ⟨"length", ⟨[("type", .null)]⟩, true, none⟩⟩ ∈ track.sites :=
    List.mem_cons_of_mem _ List.mem_cons_self
  obtain ⟨title, hwalk, htyped, -⟩ := hsites _ htitle
  obtain ⟨length, hwalk', -, hhidden⟩ := hsites _ hlength
  obtain ⟨hnull, huntyped⟩ := hhidden ⟨rfl, rfl, rfl⟩ (by decide)
  have hshown : ¬ (Field.inferred "title").HidesType := fun hides => nomatch hides.2.2
  exact ⟨track_frozen, track_answersTyped, hresolved, ⟨title, hwalk, htyped hshown⟩,
    length, hwalk', hnull, huntyped⟩

end Definition

end SearchIndex
