import SearchIndex.Definition.Draft
import SearchIndex.Proofs.Definition.Tree
import SearchIndex.Proofs.Target

/-!
# What drafts can build

A definition is not just any tree: it comes out of a draft, and so do the definitions
inside its fields. `Draft.Built` says which drafts a sequence of operations leads to, and
`Definition.Frozen` which definitions they hand out.

Two invariants hold at every depth of a frozen definition, because every operation keeps
them: no name is listed twice (`Definition.Frozen.distinct`), and every target is
indexable (`Definition.Frozen.indexable`).
-/

namespace SearchIndex

/-- The drafts that operations lead to. A field may be registered if the definition inside
it, where it has one, has come out of a draft as well. -/
inductive Draft.Built : Draft → Prop where
  | empty : Built .empty
  | setTargets {d d' : Draft} {targets : List Target} (built : Built d)
      (accepted : d.setTargets targets = .ok d') : Built d'
  | register {d : Draft} {f : Field} (built : Built d)
      (inside : ∀ inner, f.nested = some inner → Built ⟨inner⟩) : Built (d.register f)
  | changeOptions {d : Draft} (change : Options → Options) (built : Built d) :
      Built (d.changeOptions change)

/-- The definitions that drafts hand out. -/
def Definition.Frozen (d : Definition) : Prop := Draft.Built ⟨d⟩

namespace Draft

/-- What a built draft hands out is frozen. -/
theorem Built.freeze {d : Draft} (h : d.Built) : d.freeze.Frozen := h

/-- What an accepted assignment of targets changes. -/
theorem setTargets_eq_ok_iff {d d' : Draft} {targets : List Target} :
    d.setTargets targets = .ok d' ↔
      ∃ mode, Target.commonMode targets = .ok mode ∧
        d' = ⟨{ d.contents with targets := targets, mode := some mode }⟩ := by
  -- the mode is found by the check, and the rest of the draft stays
  rw [setTargets]
  cases Target.commonMode targets with
  | error e => simp [Except.map]
  | ok mode => simp [Except.map, eq_comm]

/-- An empty draft with targets has only these. -/
theorem setTargets_empty (targets : List Target) :
    Draft.empty.setTargets targets = (Target.commonMode targets).map (fun mode =>
      ⟨⟨targets, some mode, [], .empty⟩⟩) := rfl

/-- A draft that has been given its targets and nothing else. -/
theorem Built.ofTargets {targets : List Target} {mode : Mode}
    (accepted : Target.commonMode targets = .ok mode) :
    Built ⟨⟨targets, some mode, [], .empty⟩⟩ :=
  .setTargets .empty (setTargets_eq_ok_iff.mpr ⟨mode, accepted, rfl⟩)

/-- Registering one field after the other keeps a draft built. -/
theorem Built.registerAll {d : Draft} (h : d.Built) {fields : List Field}
    (inside : ∀ f ∈ fields, ∀ inner, f.nested = some inner → inner.Frozen) :
    (d.registerAll fields).Built := by
  induction fields generalizing d with
  | nil => exact h
  | cons f rest ih =>
    exact ih (h.register (inside f List.mem_cons_self))
      (fun g hg => inside g (List.mem_cons_of_mem f hg))

/-- A registered field is the one just registered or was there before. -/
theorem mem_registerIn {f g : Field} {fields : List Field} (h : g ∈ registerIn f fields) :
    g = f ∨ g ∈ fields := by
  induction fields with
  | nil => exact Or.inl (List.mem_singleton.mp h)
  | cons k rest ih =>
    -- the new field takes the place of one of its name, or comes last
    rw [registerIn] at h
    split at h
    · exact (List.mem_cons.mp h).imp id (List.mem_cons_of_mem k)
    · rcases List.mem_cons.mp h with rfl | h
      · exact Or.inr List.mem_cons_self
      · exact (ih h).imp id (List.mem_cons_of_mem k)

/-- Registering keeps names apart. -/
theorem nodup_names_registerIn {fields : List Field} (f : Field)
    (h : (fields.map Field.name).Nodup) : ((registerIn f fields).map Field.name).Nodup := by
  rw [names_registerIn]
  split
  · -- the name has been there, and the names stay as they are
    exact h
  · -- the name is new, and goes to the end
    next hnew => simpa using h.concat hnew

/-- Registering fields changes nothing but the fields. -/
theorem contents_registerAll (d : Draft) (fields : List Field) :
    (d.registerAll fields).contents =
      { d.contents with
        fields := fields.foldl (fun held f => registerIn f held) d.contents.fields } := by
  induction fields generalizing d with
  | nil =>
    obtain ⟨⟨targets, mode, fields, options⟩⟩ := d
    rfl
  | cons f rest ih => exact ih (d.register f)

/-- A field of the draft has been there or is among the ones registered. -/
theorem mem_fields_registerAll {d : Draft} {fields : List Field} {g : Field}
    (h : g ∈ (d.registerAll fields).contents.fields) : g ∈ d.contents.fields ∨ g ∈ fields := by
  induction fields generalizing d with
  | nil => exact Or.inl h
  | cons f rest ih =>
    rcases ih h with hheld | hrest
    · rcases mem_registerIn hheld with rfl | hheld
      · exact Or.inr List.mem_cons_self
      · exact Or.inl hheld
    · exact Or.inr (List.mem_cons_of_mem f hrest)

/-- What every operation keeps, as long as the definitions inside the fields have it: names
are distinct and targets indexable. -/
def Sound (d : Definition) : Prop :=
  d.names.Nodup ∧ ∀ t ∈ d.targets, t.indexable.isSome

/-- **What every operation keeps holds of every built draft.** -/
theorem Built.sound {d : Draft} (h : d.Built) : d.contents.Everywhere Sound := by
  -- along the operations that have built the draft
  induction h with
  | empty =>
    exact .intro ⟨List.nodup_nil, fun t ht => absurd ht List.not_mem_nil⟩
      (fun f hf => absurd hf List.not_mem_nil)
  | setTargets built accepted ih =>
    -- the fields stay; the new targets have passed the check
    obtain ⟨mode, hmode, rfl⟩ := setTargets_eq_ok_iff.mp accepted
    refine .intro ⟨ih.here.1, fun t ht => ?_⟩ (fun f hf inner hn => ih.inside hf hn)
    obtain ⟨i, hi, -⟩ := (Target.commonMode_eq_ok_iff.mp hmode).2 t ht
    rw [hi]
    rfl
  | register built inside ih ihInside =>
    -- the targets stay; what is inside the new field has come out of a draft itself
    refine .intro ⟨nodup_names_registerIn _ ih.here.1, ih.here.2⟩ (fun g hg inner hn => ?_)
    rcases mem_registerIn hg with rfl | hg
    · exact ihInside inner hn
    · exact ih.inside hg hn
  | changeOptions change built ih =>
    -- options have nothing to do with names and targets
    exact .intro ih.here (fun f hf inner hn => ih.inside hf hn)

end Draft

namespace Definition.Frozen

variable {d : Definition}

/-- **No name is listed twice**, at any depth. -/
theorem distinct (h : d.Frozen) : d.Distinct := h.sound.imp fun _ he => he.1

/-- **Every target is indexable**, at any depth. -/
theorem indexable (h : d.Frozen) :
    d.Everywhere fun e => ∀ t ∈ e.targets, t.indexable.isSome :=
  h.sound.imp fun _ he => he.2

end Definition.Frozen

end SearchIndex
