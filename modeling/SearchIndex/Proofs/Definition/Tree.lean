import SearchIndex.Definition
import SearchIndex.Proofs.Text.Path
import Mathlib.Data.List.Nodup

/-!
# Definitions as trees

Fields and definitions form one tree, and this module fixes how the rest of the theory
walks through it:

* `Definition.induction` — what passes from the definitions inside the fields of a
  definition to the definition itself holds of every definition;
* `Definition.Everywhere` — a property of a definition and of all definitions inside it,
  with the two properties that matter for paths, `Definition.Distinct` and
  `Definition.DotFree`;
* `Definition.within?` — the definition at the end of a list of names. It splits a look-up
  at its last name (`Definition.exists_owner_of_find?`): the definition found there is the
  one that directly holds the field, so its first target answers for it.
-/

namespace SearchIndex

/-! ### Induction -/

/-- The definition inside a field is smaller than the one that holds the field. -/
theorem Definition.sizeOf_inner_lt {d inner : Definition} {f : Field} (hf : f ∈ d.fields)
    (hn : f.nested = some inner) : sizeOf inner < sizeOf d := by
  obtain ⟨targets, mode, fields, options⟩ := d
  obtain ⟨name, own, inference, nested⟩ := f
  have hlt := List.sizeOf_lt_of_mem hf
  subst hn
  simp only [Field.mk.sizeOf_spec, Option.some.sizeOf_spec, Definition.mk.sizeOf_spec] at hlt ⊢
  omega

/-- **Induction over a definition**, from the definitions inside its fields to itself. -/
theorem Definition.induction {motive : Definition → Prop}
    (step : ∀ d, (∀ f ∈ d.fields, ∀ inner, f.nested = some inner → motive inner) → motive d)
    (d : Definition) : motive d :=
  step d fun _f hf inner hn =>
    have := Definition.sizeOf_inner_lt hf hn
    Definition.induction step inner
termination_by sizeOf d

/-- **Induction over a field**, from the fields directly inside it to itself. -/
theorem Field.induction {motive : Field → Prop}
    (step : ∀ f, (∀ inner, f.nested = some inner → ∀ g ∈ inner.fields, motive g) → motive f)
    (f : Field) : motive f := by
  -- first for all fields of a definition, as the induction over definitions gives them
  have hinside : ∀ d : Definition, ∀ g ∈ d.fields, motive g := by
    intro d
    induction d using Definition.induction with
    | step d ih => exact fun g hg => step g fun inner hn => ih g hg inner hn
  exact step f fun inner _ => hinside inner

/-! ### Properties at every depth -/

/-- A property holds of a definition and of every definition inside it. -/
inductive Definition.Everywhere (P : Definition → Prop) : Definition → Prop where
  | intro {d : Definition} (here : P d)
      (inside : ∀ f ∈ d.fields, ∀ inner, f.nested = some inner → Everywhere P inner) :
      Everywhere P d

namespace Definition.Everywhere

variable {P Q : Definition → Prop} {d inner : Definition} {f : Field}

theorem here (h : d.Everywhere P) : P d := by
  cases h with
  | intro here _ => exact here

theorem inside (h : d.Everywhere P) (hf : f ∈ d.fields) (hn : f.nested = some inner) :
    inner.Everywhere P := by
  cases h with
  | intro _ inside => exact inside f hf inner hn

/-- The introduction rule for a definition whose fields are written out. -/
theorem of_fields (fields : List Field) (hfields : d.fields = fields) (here : P d)
    (inside : ∀ f ∈ fields, ∀ inner, f.nested = some inner → inner.Everywhere P) :
    d.Everywhere P :=
  .intro here (hfields ▸ inside)

theorem imp (hPQ : ∀ d, P d → Q d) (h : d.Everywhere P) : d.Everywhere Q := by
  induction h with
  | intro here _ ih => exact .intro (hPQ _ here) ih

end Definition.Everywhere

/-- No definition of the tree lists a name twice. -/
def Definition.Distinct (d : Definition) : Prop := d.Everywhere fun e => e.names.Nodup

/-- No name of the tree holds a dot. -/
def Definition.DotFree (d : Definition) : Prop :=
  d.Everywhere fun e => ∀ name ∈ e.names, Path.hasDot name = false

/-! ### Looking up names -/

namespace Definition

variable {d e : Definition} {f : Field} {name : String}

theorem name_of_field? (h : d.field? name = some f) : f.name = name := by
  simpa using List.find?_some h

theorem mem_fields_of_field? (h : d.field? name = some f) : f ∈ d.fields :=
  List.mem_of_find?_eq_some h

/-- Where names are distinct, a field is found under its own name. -/
theorem field?_of_mem (hd : d.names.Nodup) (hf : f ∈ d.fields) :
    d.field? f.name = some f := by
  have hsome : (d.field? f.name).isSome := by
    rw [field?, List.find?_isSome]
    exact ⟨f, hf, beq_self_eq_true f.name⟩
  obtain ⟨g, hg⟩ := Option.isSome_iff_exists.mp hsome
  -- the field found has the name of `f`, and only `f` has it
  have hinj := List.inj_on_of_nodup_map hd
  rw [hg, hinj (mem_fields_of_field? hg) hf (name_of_field? hg)]

/-- Where names are distinct, the field of a name stands alone among the fields: those
before and behind it have other names. -/
theorem fields_split (hd : d.names.Nodup) (hf : f ∈ d.fields) :
    ∃ before after, d.fields = before ++ f :: after ∧
      ∀ g ∈ before ++ after, g.name ≠ f.name := by
  obtain ⟨before, after, hsplit⟩ := List.append_of_mem hf
  refine ⟨before, after, hsplit, fun g hg heq => ?_⟩
  rw [names, hsplit, List.map_append, List.map_cons, List.nodup_middle, List.nodup_cons,
    ← List.map_append] at hd
  -- a second field of that name would make the names repeat
  exact hd.1 (heq ▸ List.mem_map_of_mem hg)

/-- The definition at the end of a list of names, each a field of the definition before
with a definition inside. For no name it is the definition itself. -/
def within? (d : Definition) : List String → Option Definition
  | [] => some d
  | name :: rest =>
    (d.field? name).bind (fun f => f.nested.bind (fun inner => inner.within? rest))

@[simp] theorem within?_nil (d : Definition) : d.within? [] = some d := rfl

/-- A list of names is followed from one field to the definition inside the next. -/
theorem within?_cons_eq_some_iff {rest : List String} :
    d.within? (name :: rest) = some e ↔
      ∃ f inner, d.field? name = some f ∧ f.nested = some inner ∧
        inner.within? rest = some e := by
  simp only [within?, Option.bind_eq_some_iff]
  constructor
  · rintro ⟨f, hf, inner, hn, he⟩
    exact ⟨f, inner, hf, hn, he⟩
  · rintro ⟨f, inner, hf, hn, he⟩
    exact ⟨f, hf, inner, hn, he⟩

/-- **A look-up splits at its last name**: the names before it lead to the definition that
directly holds the field. -/
theorem findSegments?_append_singleton (d : Definition) (outer : List String)
    (name : String) :
    d.findSegments? (outer ++ [name]) = (d.within? outer).bind (fun e => e.field? name) := by
  induction outer generalizing d with
  | nil => rfl
  | cons head rest ih =>
    -- behind `head` there is at least `name`, so the look-up has to go inside
    have hne : rest ++ [name] ≠ [] := by simp
    obtain ⟨next, more, hmore⟩ := List.exists_cons_of_ne_nil hne
    rw [List.cons_append, hmore, findSegments?, ← hmore, within?]
    · -- either `head` has nothing inside, and both look-ups stop there, or both go on
      cases d.field? head with
      | none => rfl
      | some f =>
        cases hn : f.nested with
        | none => simp [hn]
        | some inner => simpa [hn] using ih inner
    · exact fun e => List.cons_ne_nil next more e

/-- A path is looked up in the definition that its segments before the last lead to. -/
theorem find?_eq (d : Definition) (p : String) :
    d.find? p = (d.within? (Path.segments p).dropLast).bind (fun e =>
      e.field? ((Path.segments p).getLast (Path.segments_ne_nil p))) := by
  rw [find?, ← findSegments?_append_singleton,
    List.dropLast_append_getLast (Path.segments_ne_nil p)]

/-- The field at the end of a path stands in the definition that the segments before the
last lead to, and the last segment is its name. -/
theorem exists_owner_of_find? {p : String} (h : d.find? p = some f) :
    ∃ owner, d.within? (Path.segments p).dropLast = some owner ∧
      owner.field? f.name = some f ∧
      (Path.segments p).dropLast ++ [f.name] = Path.segments p := by
  rw [find?_eq, Option.bind_eq_some_iff] at h
  -- the definition at the end of the outer names is the owner
  obtain ⟨owner, howner, hf⟩ := h
  obtain hname := name_of_field? hf
  exact ⟨owner, howner, hname ▸ hf,
    hname ▸ List.dropLast_append_getLast (Path.segments_ne_nil p)⟩

/-- What holds everywhere holds of the definition that a list of names leads to. -/
theorem Everywhere.within? {P : Definition → Prop} {outer : List String}
    (h : d.Everywhere P) (he : d.within? outer = some e) : e.Everywhere P := by
  induction outer generalizing d with
  | nil =>
    obtain rfl : d = e := Option.some.inj he
    exact h
  | cons head rest ih =>
    obtain ⟨f, inner, hf, hn, hrest⟩ := within?_cons_eq_some_iff.mp he
    exact ih (h.inside (mem_fields_of_field? hf) hn) hrest

end Definition

end SearchIndex
