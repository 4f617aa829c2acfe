import SearchIndex.Definition.Mapping
import SearchIndex.Proofs.Definition.Tree
import SearchIndex.Proofs.Json.Same
import SearchIndex.Proofs.Outcome.Rel

/-!
# Equality of fields

Two fields are equal (`Field.same`) if they have the same name and inference flag, equal options,
and equal fields inside, in the same order. The definitions inside hold more than fields, and
equality passes over it: targets and custom options may differ. So it has to be asked what can
be told apart of two equal fields, and `Field.same_congruence` answers that. Their expanded names
and what is found inside them under a path never differ, and neither do their mappings if the
definitions inside have the same targets (`Field.SameTargets`), for it is a target that infers
options.

All of this goes down two trees at once. One level of it is `Field.same_iff`, and one step for
the observers `Definition.SameFields`.
-/

namespace SearchIndex

/-- The fields of two definitions are equal, place by place. -/
def Definition.SameFields (d e : Definition) : Prop :=
  List.Forall₂ (fun f g => f.same g = true) d.fields e.fields

/-- The options that a target infers have distinct keys. -/
def Indexable.WellFormed (target : Indexable) : Prop :=
  ∀ name options, target.infer name = .ok options → (Json.object options).WellFormed

/-- A definition, without those inside its fields, repeats nothing: no name, and no key in the
options of a field or in those that its first target infers. -/
structure Definition.RepeatsNothing (d : Definition) : Prop where
  names : d.names.Nodup
  options : ∀ f ∈ d.fields, (Json.object f.options).WellFormed
  answers : ∀ t, d.mainIndexable? = some t → t.WellFormed

/-- A field is given with documents, in which no key can stand twice, and with definitions that
have come out of drafts, which keep names distinct (`Definition.Frozen.distinct`). -/
structure Field.WellFormed (f : Field) : Prop where
  options : (Json.object f.options).WellFormed
  definitions : ∀ d, f.nested = some d → d.Everywhere Definition.RepeatsNothing

/-- A table of options that has distinct keys at every depth answers with such options. -/
theorem Indexable.wellFormed_lookup {target : String} {mode : Mode} {fields : Document}
    (h : (Json.object fields).WellFormed) :
    Indexable.WellFormed ⟨mode, Indexable.lookup target fields⟩ := by
  intro name options hanswer
  change lookup target fields name = .ok options at hanswer
  unfold lookup at hanswer
  split at hanswer
  · -- the entry is an object, which is a part of the table
    next options' hfound =>
    obtain rfl := Except.ok.inj hanswer
    exact h.of_get? hfound
  · cases hanswer
  · cases hanswer

/-- The definitions inside two fields have the same targets wherever the same names lead. -/
def Field.SameTargets (f g : Field) : Prop :=
  ∀ names d e, f.nested.bind (fun inner => inner.within? names) = some d →
    g.nested.bind (fun inner => inner.within? names) = some e → d.targets = e.targets

namespace Field

variable {f g h : Field} {d e : Definition} {main : Option Indexable}

/-! ### An equivalence -/

/-- Two lists of fields are equal place by place. -/
theorem sameList_iff {fs gs : List Field} :
    sameList fs gs = true ↔ List.Forall₂ (fun f g => f.same g = true) fs gs := by
  induction fs generalizing gs with
  | nil =>
    cases gs with
    | nil => exact iff_of_true rfl .nil
    | cons g gs => exact iff_of_false Bool.false_ne_true nofun
  | cons f rest ih =>
    cases gs with
    | nil => exact iff_of_false Bool.false_ne_true nofun
    | cons g gs =>
      change (f.same g && sameList rest gs) = true ↔ _
      rw [Bool.and_eq_true, ih, List.forall₂_cons]

theorem sameFields_iff : d.sameFields e.fields = true ↔ d.SameFields e := by
  obtain ⟨targets, mode, fields, own⟩ := d
  exact sameList_iff

/-- **One level of equality.** -/
theorem same_iff : f.same g = true ↔ f.name = g.name ∧ f.options.same g.options = true ∧
    f.inference = g.inference ∧ Option.Rel Definition.SameFields f.nested g.nested := by
  -- the first three parts are compared the same way whatever is inside
  have hown : ∀ inside : Bool, (f.name == g.name && f.options.same g.options &&
      f.inference == g.inference && inside) = true ↔ f.name = g.name ∧
        f.options.same g.options = true ∧ f.inference = g.inference ∧ inside = true := by
    intro inside
    rw [Bool.and_eq_true, Bool.and_eq_true, Bool.and_eq_true, beq_iff_eq, beq_iff_eq, and_assoc,
      and_assoc]
  obtain ⟨name, options, inference, nested⟩ := f
  obtain ⟨name', options', inference', nested'⟩ := g
  cases nested with
  | none =>
    have hinside : nested'.isNone = true ↔ Option.Rel Definition.SameFields none nested' := by
      cases nested' with
      | none => exact iff_of_true rfl .none
      | some e => exact iff_of_false Bool.false_ne_true nofun
    rw [← hinside, ← Option.isNone_map]
    exact hown _
  | some d =>
    cases nested' with
    | none =>
      refine (hown false).trans ?_
      refine and_congr_right fun _ => and_congr_right fun _ => and_congr_right fun _ => ?_
      exact iff_of_false Bool.false_ne_true nofun
    | some e =>
      refine (hown (d.sameFields e.fields)).trans ?_
      rw [sameFields_iff, Option.rel_some_some]

namespace WellFormed

theorem repeatsNothing (hf : f.WellFormed) (hd : f.nested = some d) : d.RepeatsNothing :=
  (hf.definitions d hd).here

theorem inside (hf : f.WellFormed) (hd : f.nested = some d) (hg : g ∈ d.fields) :
    g.WellFormed where
  options := (hf.repeatsNothing hd).options g hg
  definitions _ he := (hf.definitions d hd).inside hg he

/-- A field equals itself. -/
theorem same_refl (hf : f.WellFormed) : f.same f = true := by
  induction f using Field.induction with
  | step f ih =>
    refine same_iff.mpr ⟨rfl, hf.options.same_refl, rfl, ?_⟩
    -- nothing inside, or fields that equal themselves by induction
    cases hd : f.nested with
    | none => exact .none
    | some d =>
      refine .some (List.forall₂_same.mpr fun g hg => ?_)
      exact ih d hd g hg (hf.inside hd hg)

/-- Equality does not depend on the side. -/
theorem same_symm (hf : f.WellFormed) (hg : g.WellFormed) (hfg : f.same g = true) :
    g.same f = true := by
  induction f using Field.induction generalizing g with
  | step f ih =>
    obtain ⟨hname, hoptions, hinference, hnested⟩ := same_iff.mp hfg
    refine same_iff.mpr
      ⟨hname.symm, hf.options.same_symm hg.options hoptions, hinference.symm, ?_⟩
    -- the fields inside are compared the other way round, place by place
    refine Related.symm hnested fun d e hd he hde => ?_
    exact Related.forall₂_symm hde fun f' hf' g' hg' hfg' =>
      ih d hd f' hf' (hf.inside hd hf') (hg.inside he hg') hfg'

/-- What equals the same equals one another. -/
theorem same_trans (hf : f.WellFormed) (hg : g.WellFormed) (hh : h.WellFormed)
    (hfg : f.same g = true) (hgh : g.same h = true) : f.same h = true := by
  induction f using Field.induction generalizing g h with
  | step f ih =>
    obtain ⟨hname, hoptions, hinference, hnested⟩ := same_iff.mp hfg
    obtain ⟨hname', hoptions', hinference', hnested'⟩ := same_iff.mp hgh
    refine same_iff.mpr ⟨hname.trans hname',
      hf.options.same_trans hg.options hh.options hoptions hoptions',
      hinference.trans hinference', ?_⟩
    -- three fields inside, each pair of which is equal at its place
    refine Related.trans hnested hnested' fun d e i hd he hi hde hei => ?_
    exact Related.forall₂_trans hde hei fun f' hf' g' hg' h' hh' =>
      ih d hd f' hf' (hf.inside hd hf') (hg.inside he hg') (hh.inside hi hh')

end WellFormed

/-! ### Names and paths -/

/-- **Equal fields contribute the same names**, in the same order. -/
theorem expandedNames_of_same (hfg : f.same g = true) : f.expandedNames = g.expandedNames := by
  induction f using Field.induction generalizing g with
  | step f ih =>
    obtain ⟨hname, -, -, hnested⟩ := same_iff.mp hfg
    rcases Related.none_or_some hnested with ⟨hf, hg⟩ | ⟨d, e, hd, he, hde⟩
    · -- plain fields contribute their own name
      rw [expandedNames_of_plain hf, expandedNames_of_plain hg, hname]
    · -- compound fields contribute what their fields do, in the same order
      have hinside : d.fields.map expandedNames = e.fields.map expandedNames := by
        rw [← List.forall₂_eq_eq_eq, List.forall₂_map_left_iff, List.forall₂_map_right_iff]
        exact Related.forall₂_imp hde fun f' hf' g' _ hfg' => ih d hd f' hf' hfg'
      rw [expandedNames_of_nested hd, expandedNames_of_nested he, hname,
        Definition.expandedNames_eq_flatMap, Definition.expandedNames_eq_flatMap,
        List.flatMap_def, List.flatMap_def, hinside]

/-- A name finds equal fields in definitions with equal fields. -/
theorem field?_of_sameFields (hde : d.SameFields e) (name : String) :
    Option.Rel (fun f g => f.same g = true) (d.field? name) (e.field? name) := by
  refine Related.find? hde fun f g hfg => ?_
  rw [(same_iff.mp hfg).1]

/-- Names find equal fields, or nothing in both. -/
theorem findSegments?_of_sameFields (hde : d.SameFields e) (names : List String) :
    Option.Rel (fun f g => f.same g = true) (d.findSegments? names) (e.findSegments? names) := by
  induction names generalizing d e with
  | nil => exact .none
  | cons name rest ih =>
    cases rest with
    | nil => exact field?_of_sameFields hde name
    | cons next rest =>
      -- both go on inside the fields that have been found, which are equal by their parts
      refine Related.bind (field?_of_sameFields hde name) fun f g hfg => ?_
      obtain ⟨-, -, -, hnested⟩ := same_iff.mp hfg
      exact Related.bind hnested fun d' e' hde' => ih hde'

/-- **A path finds equal fields inside equal fields**, or nothing in both. -/
theorem find?_of_same (hfg : f.same g = true) (path : String) :
    Option.Rel (fun f g => f.same g = true) (f.find? path) (g.find? path) := by
  obtain ⟨-, -, -, hnested⟩ := same_iff.mp hfg
  exact Related.bind hnested fun d e hde => findSegments?_of_sameFields hde (Path.segments path)

/-! ### Mappings -/

theorem WellFormed.agrees (hf : f.WellFormed) (hg : g.WellFormed) (hfg : f.same g = true) :
    f.options.Agrees g.options :=
  ⟨hf.options.distinct, hg.options.distinct, (same_iff.mp hfg).2.1⟩

/-- Equal options declare the same type. -/
theorem declaredType?_of_agrees (hfg : f.options.Agrees g.options) :
    f.declaredType? = g.declaredType? := by
  unfold declaredType?
  rcases Related.none_or_some (hfg.get? "type") with ⟨hf, hg⟩ | ⟨v, w, hf, hg, hvw⟩
  · rw [hf, hg]
  · rw [hf, hg]
    -- both have a type, and equal texts are the same
    exact Json.string?_of_same hvw

/-- Of the same target, equal fields infer equal options. -/
theorem infer_of_agrees (hname : f.name = g.name) (hfg : f.options.Agrees g.options)
    (hmain : ∀ t, main = some t → t.WellFormed) :
    Outcome.Rel Document.Agrees (f.infer main) (g.infer main) := by
  unfold infer
  cases main with
  | none =>
    -- without a target, both fail with an error that names the field
    rw [hname]
    exact .error _
  | some target =>
    dsimp only
    rw [hname]
    cases hanswer : target.infer g.name with
    | ok inferred =>
      -- both lay their options over the same answer
      exact .ok ((Document.Agrees.refl (hmain target rfl _ _ hanswer)).insertAll hfg)
    | error e =>
      -- whatever the error, it is reworded with the same name
      cases e <;> exact .error _

/-- Equal fields have equal fragments, apart from what is inside them. -/
theorem ownMapping_of_same (hf : f.WellFormed) (hg : g.WellFormed) (hfg : f.same g = true)
    (hmain : ∀ t, main = some t → t.WellFormed) :
    Outcome.Rel Document.Agrees (f.ownMapping main) (g.ownMapping main) := by
  obtain ⟨hname, -, hinference, hnested⟩ := same_iff.mp hfg
  have hagrees := hf.agrees hg hfg
  -- a field is compound exactly if the other is
  have hcompound : f.isCompound = g.isCompound := by
    unfold isCompound
    rcases Related.none_or_some hnested with ⟨hn, hn'⟩ | ⟨d, e, hn, hn', -⟩ <;> simp [hn, hn']
  unfold ownMapping
  rw [declaredType?_of_agrees hagrees, hcompound, hinference]
  split
  · -- a declared type leaves the options as they are
    exact .ok hagrees
  split
  · -- a compound field without one gets the type of an object
    exact .ok (hagrees.insert "type" (by simp [Json.same]))
  split
  · -- any other asks the target, or fails with an error that names the field
    exact infer_of_agrees hname hagrees hmain
  · rw [hname]
    exact .error _

/-- Fields with equal fragments under the same names, taken together. -/
theorem propertiesOf_of_agrees {fs gs : List Field}
    (hrel : List.Forall₂ (fun f g => f.name = g.name ∧
      Outcome.Rel Document.Agrees (f.mapping main) (g.mapping main)) fs gs) :
    Outcome.Rel (fun es es' => es.map Prod.fst = fs.map Field.name ∧
        List.Forall₂ (fun e e' => e.1 = e'.1 ∧ Json.same e.2 e'.2 = true) es es')
      (propertiesOf main fs) (propertiesOf main gs) := by
  induction hrel with
  | nil => exact .ok ⟨rfl, .nil⟩
  | @cons f g _ _ hfg _ ih =>
    obtain ⟨hname, hmapping⟩ := hfg
    rw [propertiesOf_cons, propertiesOf_cons]
    -- the first that fails is at the same place, and its error is the same
    refine hmapping.bind fun fragment fragment' hfragment => ih.map fun others others' hothers => ?_
    exact ⟨congrArg (List.cons f.name) hothers.1, .cons ⟨hname, hfragment.same⟩ hothers.2⟩

/-- The targets that count inside a definition with equal fields are those of the same names. -/
theorem SameTargets.inside (htargets : f.SameTargets g) (hd : f.nested = some d)
    (he : g.nested = some e) (hdistinct : d.names.Nodup) (hdistinct' : e.names.Nodup)
    {f' g' : Field} (hf' : f' ∈ d.fields) (hg' : g' ∈ e.fields) (hname : f'.name = g'.name) :
    f'.SameTargets g' := by
  intro names d' e' hd' he'
  -- the field itself is one more name on the way
  refine htargets (f'.name :: names) d' e' ?_ ?_
  · rw [hd, Option.bind_some, Definition.within?, Definition.field?_of_mem hdistinct hf']
    exact hd'
  · rw [he, Option.bind_some, Definition.within?, hname, Definition.field?_of_mem hdistinct' hg']
    exact he'

/-- **Equal fields have equal mappings**, or fail with the same error, if their definitions have
the same targets. The induction is on the field; the mapping of what is inside asks the first
target that is found there. -/
theorem mapping_of_same (hf : f.WellFormed) (hg : g.WellFormed) (hfg : f.same g = true)
    (htargets : f.SameTargets g) (hmain : ∀ t, main = some t → t.WellFormed) :
    Outcome.Rel Document.Agrees (f.mapping main) (g.mapping main) := by
  induction f using Field.induction generalizing g main with
  | step f ih =>
    have hown := ownMapping_of_same hf hg hfg hmain
    obtain ⟨-, -, -, hnested⟩ := same_iff.mp hfg
    rcases Related.none_or_some hnested with ⟨hd, he⟩ | ⟨d, e, hd, he, hde⟩
    · -- plain fields have nothing but their own fragment
      rw [mapping_of_plain hd, mapping_of_plain he]
      exact hown
    · have hbelow := hf.repeatsNothing hd
      -- the definitions inside have the same first target
      have hfirst : d.mainIndexable? = e.mainIndexable? := by
        have hsame : d.targets = e.targets := htargets [] d e (by rw [hd]; rfl) (by rw [he]; rfl)
        unfold Definition.mainIndexable?
        rw [hsame]
      -- each pair of fields inside is resolved alike, by induction
      have hfields : List.Forall₂ (fun f' g' => f'.name = g'.name ∧ Outcome.Rel Document.Agrees
          (f'.mapping d.mainIndexable?) (g'.mapping d.mainIndexable?)) d.fields e.fields := by
        refine Related.forall₂_imp hde fun f' hf' g' hg' hfg' => ?_
        have hname := (same_iff.mp hfg').1
        have htargets' := htargets.inside hd he hbelow.names (hg.repeatsNothing he).names
          hf' hg' hname
        exact ⟨hname, ih d hd f' hf' (hf.inside hd hf') (hg.inside he hg') hfg' htargets'
          hbelow.answers⟩
      -- so their properties are the same, or fail with the same error
      have hproperties : Outcome.Rel Document.Agrees d.properties e.properties := by
        rw [Definition.properties_eq, Definition.properties_eq, ← hfirst]
        refine (propertiesOf_of_agrees hfields).map fun es es' hes => ?_
        exact .of_forall₂ (hes.1 ▸ hbelow.names) hes.2
      rw [mapping_of_nested hd, mapping_of_nested he]
      exact hown.bind fun own own' hown => hproperties.map fun properties properties' hboth =>
        hown.insert "properties" hboth.same

/-- **Equality of fields is an equivalence, and nobody can tell equal fields apart** who looks at
names and paths. Equal fields contribute the same names in the same order, and under any path
there is nothing inside both, or equal fields. If their definitions have the same targets,
whatever target is asked for options, both have equal mappings or both fail with the same
error. -/
theorem same_congruence :
    Equivalence (fun f g : {f : Field // f.WellFormed} => f.1.same g.1 = true) ∧
    ∀ f g : Field, f.WellFormed → g.WellFormed → f.same g = true →
      f.expandedNames = g.expandedNames ∧
      (∀ path, Option.Rel (fun f' g' => f'.same g' = true) (f.find? path) (g.find? path)) ∧
      (f.SameTargets g → ∀ main : Option Indexable, (∀ t, main = some t → t.WellFormed) →
        Outcome.Rel (fun d e => Document.same d e = true) (f.mapping main) (g.mapping main)) := by
  refine ⟨⟨fun f => f.2.same_refl, fun {f g} hfg => f.2.same_symm g.2 hfg,
    fun {f g h} hfg hgh => f.2.same_trans g.2 h.2 hfg hgh⟩, fun f g hf hg hfg => ?_⟩
  refine ⟨expandedNames_of_same hfg, find?_of_same hfg, fun htargets main hmain => ?_⟩
  exact (mapping_of_same hf hg hfg htargets hmain).imp fun _ _ hagrees => hagrees.same

/-- An address with a city inside, whose options a target knows. -/
def address (options : Document) : Field where
  name := "address"
  options := options
  inference := false
  nested := some
    { targets := [.ofTable "Person" .index ⟨[("city", .ofMembers [("type", .string "text")])]⟩]
      mode := some .index
      fields := [.inferred "city"]
      options := .empty }

/-- Options with a zero. -/
def withZero : Document := ⟨[("boost", .number (.real .zero)), ("dynamic", .bool true)]⟩

/-- The same options in another order, with the other zero. -/
def withNegativeZero : Document :=
  ⟨[("dynamic", .bool true), ("boost", .number (.real { Binary64.zero with negative := true }))]⟩

/-- The address is well-formed if its options are. -/
theorem address_wellFormed {options : Document} (h : (Json.object options).WellFormed) :
    (address options).WellFormed := by
  refine ⟨h, ?_⟩
  rintro d ⟨⟩
  refine .of_fields [.inferred "city"] rfl ⟨List.nodup_singleton _, fun f hf => ?_, ?_⟩ ?_
  · rw [List.mem_singleton.mp hf]
    exact .object List.nodup_nil fun e he => absurd he List.not_mem_nil
  · -- the target answers with options whose keys are distinct
    rintro t ⟨⟩
    refine Indexable.wellFormed_lookup (.object (List.nodup_singleton _) fun e he => ?_)
    rw [List.mem_singleton.mp he]
    refine .object (List.nodup_singleton _) fun e he => ?_
    rw [List.mem_singleton.mp he]
    exact .scalar rfl rfl
  · intro f hf inner hn
    rw [List.mem_singleton.mp hf] at hn
    cases hn

/-- The address is the same with either options, from both sides, and so is its mapping. -/
theorem address_same : (address withNegativeZero).same (address withZero) = true ∧
    (address withZero).expandedNames = (address withNegativeZero).expandedNames ∧
    ∃ d e, (address withZero).mapping none = .ok d ∧
      (address withNegativeZero).mapping none = .ok e ∧ Document.same d e = true := by
  have hf : (address withZero).WellFormed := by
    refine address_wellFormed (.object (by decide) fun e he => ?_)
    rcases List.mem_pair.mp he with rfl | rfl <;> exact .scalar rfl rfl
  have hg : (address withNegativeZero).WellFormed := by
    refine address_wellFormed (.object (by decide) fun e he => ?_)
    rcases List.mem_pair.mp he with rfl | rfl <;> exact .scalar rfl rfl
  obtain ⟨hequivalence, hobserved⟩ := same_congruence
  -- the two zeros are one value, and the order of the options does not count
  have hsame : (address withZero).same (address withNegativeZero) = true := by decide
  obtain ⟨hnames, -, hmapping⟩ := hobserved _ _ hf hg hsame
  have htargets : (address withZero).SameTargets (address withNegativeZero) :=
    fun names d e hd he => congrArg Definition.targets (Option.some.inj (hd.symm.trans he))
  obtain ⟨d, hd⟩ : ∃ d, (address withZero).mapping none = .ok d := ⟨_, rfl⟩
  have hrel := hmapping htargets none fun t ht => by cases ht
  rw [hd] at hrel
  obtain ⟨e, he, hde⟩ := hrel.exists_of_ok_left
  exact ⟨hequivalence.symm (x := ⟨_, hf⟩) (y := ⟨_, hg⟩) hsame, hnames, d, e, hd, he, hde⟩

end Field

end SearchIndex
