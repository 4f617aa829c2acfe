import SearchIndex.Proofs.Schema.Inference

/-!
# What reading a declaration guarantees

A declaration that is read from a document has no option twice in a field, since the
options are written into a table one by one. `SchemaDeclaration.read?_optionsDistinct`
says so for every text; it is what the theory of building asks of a declaration. So
`Schema.inferred_resolution_of_read` needs no more than the text of a schema.

A reading keeps count of aliases and may fail at any point, none of which matters here.
`Yaml.Yields` states what holds of the value that a reading finds, if it finds one, with
one rule for each way in which readings are put together.
-/

namespace SearchIndex.Yaml

variable {α β : Type} {P : α → Prop} {Q : β → Prop}

/-- Every value that the reading finds satisfies `P`. -/
def Yields (P : α → Prop) (r : Reading α) : Prop :=
  ∀ g left a left', r g left = some (a, left') → P a

namespace Yields

theorem pure {a : α} (h : P a) : Yields P (Pure.pure a : Reading α) := by
  intro g left a' left' heq
  obtain ⟨rfl, -⟩ := Prod.mk.inj (Option.some.inj heq)
  exact h

theorem failure : Yields P (Alternative.failure : Reading α) :=
  fun _ _ _ _ heq => by cases heq

theorem trivial (r : Reading α) : Yields (fun _ => True) r := fun _ _ _ _ _ => True.intro

theorem bind {r : Reading α} {f : α → Reading β} (hr : Yields P r)
    (hf : ∀ a, P a → Yields Q (f a)) : Yields Q (r >>= f) := by
  -- the first reading finds a value, and the second goes on from there
  intro g left b left' heq
  obtain ⟨⟨a, mid⟩, hra, hfb⟩ := Option.bind_eq_some_iff.mp heq
  exact hf a (hr g left a mid hra) g mid b left' hfb

/-- Nothing need be known of the first reading. -/
theorem bind_any {r : Reading α} {f : α → Reading β} (hf : ∀ a, Yields Q (f a)) :
    Yields Q (r >>= f) :=
  bind (trivial r) fun a _ => hf a

theorem mapM {f : α → Reading β} {xs : List α} (h : ∀ x, Yields Q (f x)) :
    Yields (fun ys => ∀ y ∈ ys, Q y) (xs.mapM f) := by
  induction xs with
  | nil => exact pure fun y hy => absurd hy List.not_mem_nil
  | cons x rest ih =>
    rw [List.mapM_cons]
    refine bind (h x) fun y hy => bind ih fun ys hys => pure fun z hz => ?_
    rcases List.mem_cons.mp hz with rfl | hz
    · exact hy
    · exact hys z hz

theorem foldlM {f : β → α → Reading β} {xs : List α} {b : β} (hb : Q b)
    (h : ∀ b x, Q b → Yields Q (f b x)) : Yields Q (xs.foldlM f b) := by
  induction xs generalizing b with
  | nil => exact pure hb
  | cons x rest ih =>
    rw [List.foldlM_cons]
    exact bind (h b x hb) fun b' hb' => ih hb'

/-- An optional entry is as it is read, or the default. -/
theorem optional {key : String} {default : α} {read : Node → Reading α}
    {entries : List (String × Node)} (hdefault : P default) (hread : ∀ n, Yields P (read n)) :
    Yields P (Node.optional key default read entries) := by
  refine bind_any fun found => ?_
  cases found with
  | none => exact pure hdefault
  | some n => exact hread n

/-- An optional value is as it is read, or null. -/
theorem option {read : Node → Reading α} {n : Node} (hread : ∀ n, Yields P (read n)) :
    Yields (fun o => ∀ a, o = some a → P a) (Node.option read n) := by
  refine bind_any fun n => ?_
  split
  · -- null is read as no value
    exact pure fun a h => by cases h
  · refine bind (hread n) fun a ha => pure fun a' h => ?_
    exact Option.some.inj h ▸ ha

end Yields

end SearchIndex.Yaml

namespace SearchIndex

open Yaml

namespace FieldDeclaration

/-- Options are written into a table one by one. -/
theorem optionsOf_nodup (depth : Nat) (entries : List (String × Node)) :
    Yields (fun options : Document => options.keys.Nodup) (optionsOf depth entries) := by
  -- one option more is written into a table without repetitions
  refine Yields.foldlM List.nodup_nil fun taken entry htaken => ?_
  exact Yields.bind_any fun value => Yields.pure (Table.nodup_keys_insert htaken entry.1 value)

/-- Reads the list of the fields inside a field. -/
def insideOf (depth : Nat) (n : Node) : Reading (List FieldDeclaration) := do
  match ← n.items (depth - 1), depth with
  | items, deeper + 2 => items.mapM (ofNode deeper)
  | _, _ => return []

/-- How a field is read, in one equation for every depth. -/
theorem ofNode_eq (depth : Nat) (n : Node) :
    ofNode depth n = (do
      let entries ← n.record depth
      return {
        name := ← Node.required "name" Node.text entries
        inference := ← Node.optional "inference" none (Node.option Node.bool) entries
        fields := ← Node.optional "fields" none (Node.option (insideOf depth)) entries
        options := ← optionsOf (depth - 1) entries }) := by
  match depth with
  | 0 => rfl
  | 1 => rfl
  | _ + 2 => rfl

/-- No option of a field is read twice, at any depth. -/
theorem ofNode_optionsDistinct (depth : Nat) :
    ∀ n, Yields OptionsDistinct (ofNode depth n) := by
  induction depth using Nat.strongRecOn with
  | ind depth ih =>
    intro n
    rw [ofNode_eq]
    -- only the fields and the options matter, whatever the name and the rest
    refine Yields.bind_any fun entries => Yields.bind_any fun name =>
      Yields.bind_any fun inference => ?_
    refine Yields.bind (P := fun fields => ∀ inner, fields = some inner →
      ∀ g ∈ inner, OptionsDistinct g) ?_ fun fields hfields => ?_
    · -- a field without a list has nothing inside; one with a list is read less deep
      refine Yields.optional (fun inner h => by cases h) fun n => Yields.option fun n => ?_
      refine Yields.bind_any fun items => ?_
      split
      · exact Yields.mapM (ih _ (by omega))
      · exact Yields.pure fun g hg => absurd hg List.not_mem_nil
    · refine Yields.bind (optionsOf_nodup _ entries) fun options hoptions => ?_
      exact Yields.pure (.intro hoptions hfields)

end FieldDeclaration

namespace SchemaDeclaration

/-- No option of a schema is read twice, in whatever field. -/
theorem ofNode_optionsDistinct (depth : Nat) (n : Node) :
    Yields OptionsDistinct (ofNode depth n) := by
  rw [ofNode]
  refine Yields.bind_any fun entries => Yields.bind_any fun name =>
    Yields.bind_any fun targets => ?_
  refine Yields.bind (P := fun fields : List FieldDeclaration =>
    ∀ f ∈ fields, f.OptionsDistinct) ?_
    fun fields hfields => Yields.bind_any fun options => Yields.pure hfields
  refine Yields.optional (fun f hf => absurd hf List.not_mem_nil) fun n => ?_
  exact Yields.bind_any fun items => Yields.mapM (FieldDeclaration.ofNode_optionsDistinct _)

/-- **A declaration that is read has no option twice**, whatever the text. -/
theorem read?_optionsDistinct {text : String} {s : SchemaDeclaration}
    (h : read? text = some s) : s.OptionsDistinct := by
  obtain ⟨g, -, hrun⟩ := Option.bind_eq_some_iff.mp h
  obtain ⟨⟨s, left⟩, hs, rfl⟩ := Option.map_eq_some_iff.mp hrun
  exact ofNode_optionsDistinct depthLimit g.root g _ s left hs

end SchemaDeclaration

namespace Schema

variable {loader : Loader} {text : String} {schema : Schema} {p : String} {f : Field}

/-- A schema that is read is built from the declaration that the text holds. -/
theorem exists_declaration_of_read (h : read loader text = .ok schema) :
    ∃ s, SchemaDeclaration.read? text = some s ∧ s.build loader.infers = .ok schema.definition := by
  unfold read at h
  -- a text that cannot be read holds no schema
  cases hs : SchemaDeclaration.read? text with
  | none => rw [hs] at h; cases h
  | some s =>
    rw [hs] at h
    obtain ⟨d, hd, rfl⟩ := Outcome.map_eq_ok_iff.mp h
    exact ⟨s, rfl, hd⟩

/-- **An inferred field of a schema that is read** gets what the first target in the text has
under its whole path: an object with the options of the field laid over it, or else an error
that names the path. The tables of the other targets may be exchanged at will. Nothing is asked
of the options, because the reader has seen to them. -/
theorem inferred_resolution_of_read (h : read loader text = .ok schema)
    (found : schema.definition.find? p = some f) (plain : f.nested = none)
    (untyped : f.declaredType? = none) (inferred : f.inference = true) :
    p ∈ schema.definition.expandedNames ∧
    ∃ s first others, SchemaDeclaration.read? text = some s ∧ s.targets = first :: others ∧
      (∀ table, first.fields.get? p = some (.object table) →
        ∃ fragment, schema.definition.resolve? p = some (.ok fragment) ∧
          (∀ key, fragment.get? key = (f.options.get? key).or (table.get? key)) ∧
          fragment.keys = table.keys ++ f.options.keys.filter (fun key => key ∉ table.keys)) ∧
      ((∀ table, first.fields.get? p ≠ some (.object table)) →
        ∃ fault, schema.definition.resolve? p = some (.error (.mapping p fault))) ∧
      (∀ others' : List TargetDeclaration,
        others'.map (fun t => (t.name, t.mode)) = others.map (fun t => (t.name, t.mode)) →
        ∃ d, SchemaDeclaration.build loader.infers { s with targets := first :: others' } = .ok d ∧
          d.resolve? p = schema.definition.resolve? p) := by
  obtain ⟨s, hs, built⟩ := exists_declaration_of_read h
  -- the reader has seen to the options
  have declared := SchemaDeclaration.read?_optionsDistinct hs
  obtain ⟨first, others, htargets⟩ := SchemaDeclaration.exists_first_of_build built
  refine ⟨SchemaDeclaration.mem_expandedNames_of_find? built found, s, first, others, hs, htargets,
    fun table htable => ?_, fun hnone => ?_, fun others' hothers => ?_⟩
  · exact SchemaDeclaration.resolve?_of_object declared built htargets found plain untyped
      inferred htable
  · exact SchemaDeclaration.resolve?_of_no_object built htargets found plain untyped inferred
      hnone
  · obtain ⟨d, hd, hsame⟩ := SchemaDeclaration.exists_build_of_others built htargets hothers
    exact ⟨d, hd, hsame p⟩

end Schema

end SearchIndex
