import SearchIndex.Proofs.Definition.Tree

/-!
# Looking up along joined paths

A path is taken apart at its dots, and a look-up goes down by one field for each segment. So it
does not matter where a path is cut: looking up a path that is joined from two is looking up the
first one, and then the second one from the field that is found
(`Definition.findSegments?_append`). Nothing is asked of the two texts or of the names in the
tree. Either text may be empty or have dots of its own, at its ends as well, because empty
segments are segments too.

`Definition.find?_joined` says this of paths, and with it where a look-up comes to an end: at the
first dot if there is no field of the name in front of it, and at any field that has no fields
inside. A path without a dot asks for nothing but a name. The converse fails: a name that holds a
dot is registered, but no path leads to it.
-/

namespace SearchIndex

namespace Definition

variable {d : Definition}

/-- In front of further segments, a name has to belong to a compound field. -/
theorem findSegments?_cons (d : Definition) (name : String) {rest : List String}
    (h : rest ≠ []) :
    d.findSegments? (name :: rest) = (d.field? name).bind (fun f =>
      f.nested.bind (fun inner => inner.findSegments? rest)) := by
  obtain ⟨next, more, rfl⟩ := List.exists_cons_of_ne_nil h
  rw [findSegments?]
  exact fun hnil => List.cons_ne_nil next more hnil

/-- **A look-up may be cut anywhere**, as long as there is a segment on either side. -/
theorem findSegments?_append (d : Definition) {outer inner : List String} (ho : outer ≠ [])
    (hi : inner ≠ []) :
    d.findSegments? (outer ++ inner) = (d.findSegments? outer).bind (fun f =>
      f.nested.bind (fun e => e.findSegments? inner)) := by
  -- on the segments in front of the cut, from any definition
  induction outer generalizing d with
  | nil => exact absurd rfl ho
  | cons name rest ih =>
    rw [List.cons_append, findSegments?_cons d name (List.append_ne_nil_of_right_ne_nil rest hi)]
    by_cases hrest : rest = []
    · -- the cut is right behind this name
      subst hrest
      rfl
    · rw [findSegments?_cons d name hrest]
      cases d.field? name with
      | none =>
        -- no field has this name, so both look-ups end here
        rfl
      | some f =>
        -- the look-up goes on inside the field, if it has fields inside
        cases hn : f.nested with
        | none => simp [hn]
        | some e =>
          have hinside := ih e hrest
          simpa [hn] using hinside

/-- Looking up a joined path is looking up the two paths one after the other. -/
theorem find?_join (d : Definition) (outer inner : String) :
    d.find? (Path.join outer inner) = (d.find? outer).bind (fun f => f.find? inner) := by
  rw [find?, Path.segments_join,
    findSegments?_append d (Path.segments_ne_nil outer) (Path.segments_ne_nil inner)]
  rfl

/-- A path without a dot is a name. -/
theorem find?_of_not_hasDot {name : String} (h : Path.hasDot name = false) :
    d.find? name = d.field? name := by
  rw [find?, Path.segments_of_not_hasDot h]
  rfl

/-- **Looking up a path that is joined from two** is looking up the first and going on with the
second from there. Nothing is found if the first leads nowhere or to a field without fields
inside. Up to its first dot a path is a name: only the field of that name counts, and it is found
exactly if the name is registered. -/
theorem find?_joined (d : Definition) (p q : String) :
    d.find? (p ++ "." ++ q) = (d.find? p).bind (fun f => f.find? q) ∧
    ((∀ f, d.find? p = some f → f.nested = none) → d.find? (p ++ "." ++ q) = none) ∧
    (Path.hasDot p = false →
      d.find? (p ++ "." ++ q) = (d.field? p).bind (fun f => f.find? q) ∧
      ((∃ f, d.find? p = some f) ↔ d.hasField p = true)) := by
  have hjoin : d.find? (p ++ "." ++ q) = (d.find? p).bind (fun f => f.find? q) :=
    find?_join d p q
  refine ⟨hjoin, fun hplain => ?_, fun hdot => ⟨?_, ?_⟩⟩
  · -- the first field leads nowhere or has nothing inside, so the second path finds nothing
    rw [hjoin, Option.bind_eq_none_iff]
    intro f hf
    rw [Field.find?, hplain f hf]
    rfl
  · rw [hjoin, find?_of_not_hasDot hdot]
  · -- a name that is found is one that is registered
    rw [find?_of_not_hasDot hdot, hasField, Option.isSome_iff_exists]

/-- A definition with a field that has an empty name, fields inside it, and a field whose name
holds a dot. -/
def unnamed : Definition :=
  let inside : Definition := ⟨[], none, [.typed "" "text", .typed "a" "keyword"], .empty⟩
  ⟨[], none, [⟨"", .empty, false, some inside⟩, .typed "a.b" "text"], .empty⟩

/-- Single dots lead from empty name to empty name and no further than there are fields; the
field whose name holds a dot is registered, but not found. -/
theorem unnamed_joined :
    unnamed.find? ("" ++ "." ++ "") = some (.typed "" "text") ∧
    unnamed.find? ("" ++ "." ++ "a") = some (.typed "a" "keyword") ∧
    unnamed.find? ("." ++ "." ++ "a") = none ∧
    unnamed.hasField "" = true ∧ unnamed.hasField "a.b" = true ∧
    unnamed.find? ("a" ++ "." ++ "b") = none := by
  have hdot : unnamed.find? ("" ++ "." ++ "") = some (.typed "" "text") :=
    (find?_joined unnamed "" "").1
  refine ⟨hdot, (find?_joined unnamed "" "a").1, ?_, ?_, rfl, ?_⟩
  · -- the field at the end of the first dot is plain
    refine (find?_joined unnamed "." "a").2.1 fun f hf => ?_
    rw [← Option.some.inj (hdot.symm.trans hf)]
    rfl
  · exact ((find?_joined unnamed "" "").2.2 rfl).2.mp ⟨_, rfl⟩
  · exact (find?_joined unnamed "a" "b").2.1 fun f hf => by cases hf

end Definition

end SearchIndex
