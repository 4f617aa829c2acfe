import SearchIndex.Proofs.Text.Path
import SearchIndex.Target

/-!
# Lists of targets and stacks of scopes

Four facts about targets carry the theory of definitions:

* `Indexable.lookup_eq_ok`, `Indexable.lookup_eq_error` — a table of field options gives the
  object under the path that is asked for, and otherwise an error that names this path;
* `Target.commonMode_eq_ok_iff` — a list of targets passes the check exactly when it is
  not empty and all of it is indexable in one mode;
* `Target.commonMode_congr` — the check goes by names and modes alone (`Target.standing`),
  whether it passes or not, and so it cannot tell what a target answers for its fields;
* `Target.indexable_foldl_within` — a target seen from inside one field after the other
  is the target itself, asked for the whole path.

Scopes are put around a target from the outermost field inwards, and a question comes the
other way: the last scope put on hears it first and prepends its name first. What both
orders have in common is `Indexable.inside`. One scope goes inside by one name
(`Target.indexable_within`), and going inside twice is going inside by both lists of names
(`Indexable.inside_inside`). As scopes keep the standing of a target too, a stack of them can
only be told by the paths that are asked for, which is `Target.scopes_transparent`.
-/

namespace SearchIndex

/-! ### Tables of options -/

/-- A path that has an object of options is answered by that object. -/
theorem Indexable.lookup_eq_ok (target : String) {path : String} {fields table : Document}
    (h : fields.get? path = some (.object table)) : lookup target fields path = .ok table := by
  rw [lookup, h]

/-- Any other path has no options: the error names the path and the target. -/
theorem Indexable.lookup_eq_error (target : String) {path : String} {fields : Document}
    (h : ∀ table, fields.get? path ≠ some (.object table)) :
    ∃ fault, lookup target fields path = .error (.mapping path fault) := by
  rw [lookup]
  split
  · -- an object has been excluded
    next table htable => exact absurd htable (h table)
  · -- the entry is something else, which the error shows
    next other _ _ => exact ⟨.notAnObject target other, rfl⟩
  · -- there is no entry at all
    exact ⟨.noOptions target, rfl⟩

namespace Target

/-! ### Lists of targets -/

/-- The rest of a list passes if all of it is indexable in the mode of the first target. -/
theorem checkRest_eq_ok_iff {first : String} {mode m : Mode} {targets : List Target} :
    checkRest first mode targets = .ok m ↔
      m = mode ∧ ∀ t ∈ targets, ∃ i, t.indexable = some i ∧ i.mode = mode := by
  -- the mode to compare with stays that of the first target, all along the list
  induction targets with
  | nil => simp [checkRest, eq_comm]
  | cons t rest ih =>
    cases hi : t.indexable with
    | none => simp [checkRest, hi]
    | some i =>
      by_cases hm : i.mode = mode
      · simp [checkRest, hi, hm, ih]
      · simp [checkRest, hi, hm]

/-- **The targets that may back a definition together.** -/
theorem commonMode_eq_ok_iff {mode : Mode} {targets : List Target} :
    commonMode targets = .ok mode ↔
      targets ≠ [] ∧ ∀ t ∈ targets, ∃ i, t.indexable = some i ∧ i.mode = mode := by
  cases targets with
  | nil => simp [commonMode]
  | cons t rest =>
    cases hi : t.indexable with
    | none => simp [commonMode, hi]
    | some i =>
      -- the first target sets the mode, and the rest is held against it
      simp only [commonMode, hi, checkRest_eq_ok_iff]
      constructor
      · rintro ⟨rfl, hrest⟩
        refine ⟨List.cons_ne_nil t rest, fun u hu => ?_⟩
        rcases List.mem_cons.mp hu with rfl | hu
        · exact ⟨i, hi, rfl⟩
        · exact hrest u hu
      · -- the mode that all agree on is that of the first target
        rintro ⟨-, hall⟩
        obtain ⟨j, hj, hmode⟩ := hall t List.mem_cons_self
        obtain rfl : i = j := Option.some.inj (hi.symm.trans hj)
        exact ⟨hmode.symm, fun u hu => hmode ▸ hall u (List.mem_cons_of_mem t hu)⟩

/-- The first of several targets may back a definition alone. -/
theorem commonMode_take_one {mode : Mode} {targets : List Target}
    (h : commonMode targets = .ok mode) : commonMode (targets.take 1) = .ok mode := by
  obtain ⟨hne, hall⟩ := commonMode_eq_ok_iff.mp h
  exact commonMode_eq_ok_iff.mpr
    ⟨by simpa using hne, fun t ht => hall t (List.mem_of_mem_take ht)⟩

/-! ### What the check goes by -/

/-- The mode of a target, if it is indexable. -/
def mode? (t : Target) : Option Mode := t.indexable.map Indexable.mode

/-- All that the check of a list looks at in a target. -/
def standing (t : Target) : String × Option Mode := (t.name, t.mode?)

/-- One step of the check, by the standing of the target that is reached. -/
theorem checkRest_cons (first : String) (mode : Mode) (t : Target) (rest : List Target) :
    checkRest first mode (t :: rest) =
      match t.standing with
      | (name, none) => .error (.configuration (.notIndexable name))
      | (name, some m) =>
        if m = mode then checkRest first mode rest
        else .error (.configuration (.mixedModes first mode name m)) := by
  rw [checkRest, standing, mode?]
  cases t.indexable <;> rfl

/-- The first target sets the mode for the others, again by its standing. -/
theorem commonMode_cons (t : Target) (rest : List Target) :
    commonMode (t :: rest) =
      match t.standing with
      | (name, none) => .error (.configuration (.notIndexable name))
      | (name, some m) => checkRest name m rest := by
  rw [commonMode, standing, mode?]
  cases t.indexable <;> rfl

/-- What the check finds in the rest of a list depends on the standing of its members. -/
theorem checkRest_congr {ts us : List Target} (h : ts.map standing = us.map standing)
    (first : String) (mode : Mode) : checkRest first mode ts = checkRest first mode us := by
  induction ts generalizing us with
  | nil => rw [List.map_eq_nil_iff.mp h.symm]
  | cons t rest ih =>
    -- the lists are taken apart together; both checks turn on the standing of the first target
    obtain ⟨u, others, rfl, hu, hothers⟩ := List.map_eq_cons_iff.mp h.symm
    rw [checkRest_cons, checkRest_cons, hu, ih hothers.symm]

/-- **The check goes by standing alone**: it finds the same mode, or the same fault, in lists
of targets that have the same names and modes. -/
theorem commonMode_congr {ts us : List Target} (h : ts.map standing = us.map standing) :
    commonMode ts = commonMode us := by
  cases ts with
  | nil => rw [List.map_eq_nil_iff.mp h.symm]
  | cons t rest =>
    -- the first targets set one mode, and the rest is checked against it
    obtain ⟨u, others, rfl, hu, hothers⟩ := List.map_eq_cons_iff.mp h.symm
    simp only [commonMode_cons, hu, checkRest_congr hothers.symm]

end Target

/-! ### Scopes -/

namespace Indexable

/-- An indexable target from inside the fields `scopes`, the outermost first: it has the
same mode, and a field is looked up under its whole path. -/
def inside (scopes : List String) (i : Indexable) : Indexable where
  mode := i.mode
  infer field := i.infer (Path.ofSegments (scopes ++ [field]))

/-- Going further inside leads on with the path. -/
theorem inside_inside (outer inner : List String) (i : Indexable) :
    (i.inside outer).inside inner = i.inside (outer ++ inner) := by
  have hpath : ∀ field, Path.ofSegments (outer ++ [Path.ofSegments (inner ++ [field])]) =
      Path.ofSegments (outer ++ inner ++ [field]) := by
    intro field
    -- what the inner view asks for is the end of what the outer one asks for
    rw [Path.ofSegments_append_singleton outer (by simp), List.append_assoc]
  simp only [inside, hpath]

/-- A target that is indexable answers for its fields from inside one. -/
theorem within_of_some {t : Target} {i : Indexable} (h : t.indexable = some i)
    (scope : String) : within t scope = i.inside [scope] := by
  rw [within, h]
  rfl

/-- Asked all the same, a target that is not indexable answers with an error. -/
theorem within_of_none {t : Target} (h : t.indexable = none) (scope : String) :
    within t scope = ⟨.index, fun field => .error (.mapping field (.notIndexable t.name))⟩ := by
  rw [within, h]

end Indexable

namespace Target

/-- One scope goes inside by one name. -/
theorem indexable_within (t : Target) (scope : String) :
    (t.within scope).indexable = t.indexable.map (Indexable.inside [scope]) := by
  cases h : t.indexable with
  | none => simp [within, h]
  | some i => simp [within, h, Indexable.within_of_some h]

/-- Scopes do not rename a target. -/
theorem name_foldl_within (t : Target) (scopes : List String) :
    (scopes.foldl within t).name = t.name := by
  induction scopes generalizing t with
  | nil => rfl
  | cons scope rest ih => rw [List.foldl_cons, ih, name_within]

/-- **A stack of scopes asks for the whole path.** -/
theorem indexable_foldl_within (t : Target) (scopes : List String) :
    (scopes.foldl within t).indexable = t.indexable.map (Indexable.inside scopes) := by
  -- the target that the rest of the scopes is put around is another one at every step
  induction scopes generalizing t with
  | nil => exact Option.map_id'.symm
  | cons scope rest ih =>
    -- inside by the first name and then by the others is inside by all of them
    have hinside : Indexable.inside rest ∘ Indexable.inside [scope] =
        Indexable.inside (scope :: rest) := funext (Indexable.inside_inside [scope] rest)
    rw [List.foldl_cons, ih, indexable_within, Option.map_map, hinside]

/-- A stack of scopes keeps all that the check of a list goes by. -/
theorem standing_foldl_within (t : Target) (scopes : List String) :
    (scopes.foldl within t).standing = t.standing := by
  have hmode : Indexable.mode ∘ Indexable.inside scopes = Indexable.mode := rfl
  rw [standing, mode?, name_foldl_within, indexable_foldl_within, Option.map_map, hmode]
  rfl

/-- The check does not see scopes, and each target may have its own. -/
theorem commonMode_stacked (stacked : List (Target × List String)) :
    commonMode (stacked.map fun s => s.2.foldl within s.1) = commonMode (stacked.map Prod.fst) := by
  -- a target is judged by its standing, which its own stack of scopes keeps
  refine commonMode_congr ?_
  rw [List.map_map, List.map_map]
  exact List.map_congr_left fun s _ => standing_foldl_within s.1 s.2

/-- Targets that may back a definition may back one at any depth inside it. -/
theorem commonMode_foldl_within {targets : List Target} {mode : Mode}
    (h : commonMode targets = .ok mode) (outer : List String) :
    commonMode (targets.map fun t => outer.foldl within t) = .ok mode := by
  calc commonMode (targets.map fun t => outer.foldl within t)
      -- one stack for all is a stack for each
      = commonMode ((targets.map fun t => (t, outer)).map fun s => s.2.foldl within s.1) := by
        rw [List.map_map]
        rfl
    _ = commonMode ((targets.map fun t => (t, outer)).map Prod.fst) := commonMode_stacked _
    _ = commonMode targets := by
        rw [List.map_map]
        exact congrArg commonMode targets.map_id
    _ = .ok mode := h

/-- Targets that may back a definition may back the ones inside it. -/
theorem commonMode_within {mode : Mode} {targets : List Target}
    (h : commonMode targets = .ok mode) (scope : String) :
    commonMode (targets.map (fun t => t.within scope)) = .ok mode :=
  commonMode_foldl_within h [scope]

/-- The scope that is put on last, asked without a look at whether it is indexable. Around a
target that is not, it has a mode nevertheless, and its error names the field as it has been
asked for, without a path. -/
theorem within_foldl_within (t : Target) (outer : List String) (scope : String) :
    Indexable.within (outer.foldl within t) scope =
      match t.indexable with
      | some i => i.inside (outer ++ [scope])
      | none => ⟨.index, fun field => .error (.mapping field (.notIndexable t.name))⟩ := by
  -- the scopes below are transparent, so the last one goes inside by one more name
  have houter := indexable_foldl_within t outer
  cases hi : t.indexable with
  | some i =>
    rw [hi, Option.map_some] at houter
    rw [Indexable.within_of_some houter, Indexable.inside_inside]
  | none =>
    -- below there is nothing to ask, and the error names the target by its own name
    rw [hi, Option.map_none] at houter
    rw [Indexable.within_of_none houter, name_foldl_within]

/-- `u` is `t` seen from inside the fields `scopes`, the outermost first: nothing tells them
apart but the paths that `t` is asked for. -/
structure SeenFrom (scopes : List String) (t u : Target) : Prop where
  name_eq : u.name = t.name
  indexable_iff : u.indexable.isSome ↔ t.indexable.isSome
  mode_eq : ∀ i j, t.indexable = some i → u.indexable = some j → j.mode = i.mode
  infer_eq : ∀ i j, t.indexable = some i → u.indexable = some j →
    ∀ field, j.infer field = i.infer (Path.ofSegments (scopes ++ [field]))

/-- A stack of scopes is a view from inside its fields, the outermost first. -/
theorem seenFrom_foldl_within (t : Target) (scopes : List String) :
    SeenFrom scopes t (scopes.foldl within t) := by
  have hindexable := indexable_foldl_within t scopes
  -- an answer of the stack is an answer of the target, asked for the whole path
  have hinside : ∀ i j, t.indexable = some i → (scopes.foldl within t).indexable = some j →
      j = i.inside scopes := by
    intro i j hi hj
    rw [hindexable, hi, Option.map_some] at hj
    exact (Option.some.inj hj).symm
  refine ⟨name_foldl_within t scopes, ?_, ?_, ?_⟩
  · -- scopes are indexable as the target is
    rw [hindexable, Option.isSome_map]
  · -- the mode is that of the target, because going inside keeps it
    intro i j hi hj
    rw [hinside i j hi hj]
    rfl
  · -- the path is made of the scopes and the field, because going inside prepends them
    intro i j hi hj field
    rw [hinside i j hi hj]
    rfl

/-- **Scopes are transparent but for the path.** Whatever fields a target is seen from, one
inside the other, it keeps its name, it is indexable if it has been, and then it keeps its
mode and answers for a field as it does for the whole path. The scope put on last answers in
the same way when it is asked itself. And no list of targets is judged otherwise for the scopes
around its members, which may be others for each of them: the mode is the same, and so is the
fault. -/
theorem scopes_transparent :
    (∀ (t : Target) (scopes : List String), SeenFrom scopes t (scopes.foldl within t)) ∧
    (∀ (t : Target) (outer : List String) (scope : String),
      Indexable.within (outer.foldl within t) scope =
        match t.indexable with
        | some i => i.inside (outer ++ [scope])
        | none => ⟨.index, fun field => .error (.mapping field (.notIndexable t.name))⟩) ∧
    ∀ stacked : List (Target × List String),
      commonMode (stacked.map fun s => s.2.foldl within s.1) =
        commonMode (stacked.map Prod.fst) := by
  refine ⟨fun t scopes => ?_, fun t outer scope => ?_, fun stacked => ?_⟩
  · -- from inside the stack
    exact seenFrom_foldl_within t scopes
  · -- from inside its last scope alone
    exact within_foldl_within t outer scope
  · -- the check, on any list of such stacks
    exact commonMode_stacked stacked

/-- Two fields deep, the first of them outermost. -/
example :
    (["publisher", "seat"].foldl within (.ofTable "Book" .storage
      ⟨[("publisher.seat.city", .ofMembers [("type", .string "keyword")])]⟩)).indexable.map
        (fun i => (i.mode, i.infer "city")) =
      some (.storage, .ok ⟨[("type", .string "keyword")]⟩) := rfl

end Target

end SearchIndex
