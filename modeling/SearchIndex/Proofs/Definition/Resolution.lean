import SearchIndex.Proofs.Definition.Site
import SearchIndex.Proofs.Outcome
import SearchIndex.Transport

/-!
# When a mapping cannot be resolved

The mapping of a definition is put together by two functions that call each other, and
any of the fields may stop it. `Definition.error?_properties` says in one equation what
comes of that: the mapping fails with the first failure among the sites of the
definition, in preorder, and a compound field is never one of them.

The main result, `Definition.mapping_resolution`, spells out which fields fail
(`Site.Unresolvable`), which of them decides the error, that the error is about a mapping
whatever the target reported, and what of all this reaches a transport. Requests are
counted by `Transport.recording`, which may be put around any transport.
-/

namespace SearchIndex

/-! ### One field -/

namespace Field

variable {f : Field} {main : Option Indexable}

/-- A compound field has a fragment of its own, whatever its options say. -/
theorem exists_ownMapping_of_nested {inner : Definition} (h : f.nested = some inner)
    (main : Option Indexable) : ∃ own, f.ownMapping main = .ok own := by
  -- with a declared type the options are the fragment, and else the type is added to them
  cases ht : f.declaredType? with
  | some type => exact ⟨_, ownMapping_of_declared main ht⟩
  | none => exact ⟨_, ownMapping_of_compound main ht h⟩

/-- Inference fails where no target answers, or the target answers with an error. -/
theorem exists_infer_eq_error_iff :
    (∃ e, f.infer main = .error e) ↔
      main = none ∨ ∃ target e, main = some target ∧ target.infer f.name = .error e := by
  cases main with
  | none => simp [infer]
  | some target =>
    -- a target answers with options, or with an error that is reworded
    cases hi : target.infer f.name with
    | ok inferred => simp [infer, hi]
    | error e => cases e <;> simp [infer, hi]

/-- Inference fails with an error about a mapping, whatever the target reports. -/
theorem mapping_of_infer_eq_error {e : Error} (h : f.infer main = .error e) :
    ∃ field fault, e = .mapping field fault := by
  cases main with
  | none => exact ⟨f.name, .withoutTarget, by cases h; rfl⟩
  | some target =>
    rw [infer] at h
    split at h
    · cases h
    · -- an error about a mapping is handed on
      next field fault _ => exact ⟨field, fault, by cases h; rfl⟩
    · -- any other is quoted
      next other _ _ => exact ⟨f.name, .stated other.message, by cases h; rfl⟩

/-- Without a type of its own and without fields, a field can only fail about its mapping. -/
theorem mapping_of_ownMapping_eq_error {e : Error} (h : f.ownMapping main = .error e) :
    ∃ field fault, e = .mapping field fault := by
  rw [ownMapping] at h
  split at h
  · cases h
  split at h
  · cases h
  split at h
  · exact mapping_of_infer_eq_error h
  · exact ⟨f.name, .inferenceDisabled, by cases h; rfl⟩

end Field

/-! ### One site -/

namespace Site

variable {s : Site}

/-- The field is not compound, declares no type, and cannot be inferred: inference is
disabled, the definition that directly holds the field has no first target to ask, or
that target fails for the name of the field. -/
def Unresolvable (s : Site) : Prop :=
  s.field.nested = none ∧ s.field.declaredType? = none ∧
    (s.field.inference = false ∨ s.owner.mainIndexable? = none ∨
      ∃ target e, s.owner.mainIndexable? = some target ∧ target.infer s.field.name = .error e)

/-- The error that the field itself brings into the mapping. -/
def failure? (s : Site) : Option Error :=
  if s.field.isCompound then none else Outcome.error? (s.field.ownMapping s.owner.mainIndexable?)

/-- A field has a failure exactly if it is not compound and its fragment cannot be made. -/
theorem failure?_eq_some_iff {e : Error} :
    s.failure? = some e ↔
      s.field.nested = none ∧ s.field.mapping s.owner.mainIndexable? = .error e := by
  cases hn : s.field.nested with
  | none =>
    simp [failure?, Field.isCompound, hn, Field.mapping_of_plain hn, Outcome.error?_eq_some_iff]
  | some inner => simp [failure?, Field.isCompound, hn]

/-- **The fields with a failure are those that cannot be resolved.** -/
theorem unresolvable_iff : s.Unresolvable ↔ ∃ e, s.failure? = some e := by
  simp only [failure?_eq_some_iff, exists_and_left, Unresolvable]
  refine and_congr_right fun hn => ?_
  rw [Field.mapping_of_plain hn]
  -- a declared type is all that a field needs, and else it takes an inference
  cases ht : s.field.declaredType? with
  | some type => simp [Field.ownMapping_of_declared _ ht]
  | none =>
    rw [Field.ownMapping_of_plain _ ht hn]
    cases s.field.inference with
    | false => simp
    | true => simpa using Field.exists_infer_eq_error_iff.symm

end Site

/-! ### The whole definition -/

namespace Definition

/-- The first failure of a field's sites, where the mapping of the definition inside it is
understood already. -/
theorem error?_mapping (owner : Definition) {f : Field}
    (ih : ∀ inner, f.nested = some inner →
      Outcome.error? inner.properties = inner.sites.findSome? Site.failure?) :
    Outcome.error? (f.mapping owner.mainIndexable?) = (f.sites owner).findSome? Site.failure? := by
  rw [Field.sites_eq, List.findSome?_cons]
  cases hn : f.nested with
  | none =>
    -- the field is its only site
    rw [Field.sitesInside_of_plain hn, Field.mapping_of_plain hn, Site.failure?,
      if_neg (by simp [Field.isCompound, hn])]
    cases Outcome.error? (f.ownMapping owner.mainIndexable?) <;> rfl
  | some inner =>
    -- the field itself does not fail, so all depends on what is inside
    obtain ⟨own, hown⟩ := Field.exists_ownMapping_of_nested hn owner.mainIndexable?
    rw [Field.mapping_of_nested hn, hown, Site.failure?, if_pos (by simp [Field.isCompound, hn]),
      Field.sitesInside_of_nested hn, List.findSome?_map]
    change Outcome.error? (inner.properties.map _) = _
    rw [Outcome.error?_map, ih inner hn]
    rfl

/-- **The first failure among the sites is the error of the whole.** -/
theorem error?_properties (d : Definition) :
    Outcome.error? d.properties = d.sites.findSome? Site.failure? := by
  induction d using Definition.induction with
  | step d ih =>
    rw [properties_eq, Outcome.error?_map, sites_eq_flatMap]
    generalize hmain : d.mainIndexable? = main
    -- the fields share the owner `d`; the list of those left shrinks
    have hlist : ∀ fields : List Field, (∀ f ∈ fields, f ∈ d.fields) →
        Outcome.error? (Field.propertiesOf main fields)
          = (fields.flatMap (Field.sites d)).findSome? Site.failure? := by
      intro fields hmem
      induction fields with
      | nil => rfl
      | cons f rest ihRest =>
        have hf := error?_mapping d (ih f (hmem f List.mem_cons_self))
        have hrest := ihRest fun g hg => hmem g (List.mem_cons_of_mem f hg)
        rw [List.flatMap_cons, List.findSome?_append, ← hf, ← hrest, hmain,
          Field.propertiesOf_cons, Outcome.error?_bind_map]
    exact hlist d.fields fun f hf => hf

/-- The error of a mapping is the first failure among the sites. -/
theorem mapping_eq_error_iff {d : Definition} {e : Error} :
    d.mapping = .error e ↔ d.sites.findSome? Site.failure? = some e := by
  rw [← error?_properties, ← Outcome.error?_eq_some_iff, mapping, Outcome.error?_map]

end Definition

/-! ### What reaches the transport -/

/-- The transport that answers as `t` does and notes every request behind those noted
before. -/
def Transport.recording {m : Type → Type} [Monad m] (t : Transport m) :
    Transport (StateT (List Request) m) where
  send request := fun noted => do
    let answer ← t.send request
    pure (answer, noted ++ [request])

/-- **The first unresolvable field decides.** A mapping fails exactly if some field cannot
be resolved. Its error is then that of the first such field in preorder, asked of the
first target of the definition that directly holds it, and it is always about a mapping.
A mapping that fails is never sent; any other is sent once, as it is, and the answer of
the transport is passed on. -/
theorem Definition.mapping_resolution (d : Definition) :
    ((∃ e, d.mapping = .error e) ↔ ∃ s ∈ d.sites, s.Unresolvable) ∧
    (∀ e, d.mapping = .error e →
      (∃ field fault, e = .mapping field fault) ∧
      ∃ before s after, d.sites = before ++ s :: after ∧
        (∀ t ∈ before, ¬ t.Unresolvable) ∧ s.Unresolvable ∧
        s.field.mapping s.owner.mainIndexable? = .error e) ∧
    (∀ (m : Type → Type) [Monad m] (t : Transport m) (index : String) (noted : List Request),
      (d.putMapping t.recording index).run noted =
        match d.mapping with
        | .error e => pure (.error e, noted)
        | .ok body => do
          let answer ← t.send (.putMapping index body)
          pure (answer, noted ++ [.putMapping index body])) := by
  refine ⟨?_, ?_, ?_⟩
  · -- some failure is found exactly if some site has one
    simp only [mapping_eq_error_iff, Site.unresolvable_iff]
    rw [← Option.isSome_iff_exists, List.findSome?_isSome_iff]
    simp only [Option.isSome_iff_exists]
  · -- the site that the search stops at is the first that fails
    intro e he
    obtain ⟨before, s, after, hsplit, hs, hbefore⟩ :=
      List.findSome?_eq_some_iff.mp (mapping_eq_error_iff.mp he)
    obtain ⟨hplain, hmapping⟩ := Site.failure?_eq_some_iff.mp hs
    refine ⟨?_, before, s, after, hsplit, ?_, Site.unresolvable_iff.mpr ⟨e, hs⟩, hmapping⟩
    · -- the failing field is plain, so the error comes out of its own fragment
      rw [Field.mapping_of_plain hplain] at hmapping
      exact Field.mapping_of_ownMapping_eq_error hmapping
    · -- whatever stands before it has no failure
      intro t ht hunresolvable
      obtain ⟨e', he'⟩ := Site.unresolvable_iff.mp hunresolvable
      rw [hbefore t ht] at he'
      cases he'
  · -- a request is made only with a document at hand
    intro m _ t index noted
    rw [putMapping]
    cases d.mapping <;> rfl

end SearchIndex
