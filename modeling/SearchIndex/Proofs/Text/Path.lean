import SearchIndex.Text.Path

/-!
# Dotted paths and lists of names

A path and the list of its segments say the same thing. `Path.ofSegments` writes a list
of names with a dot between neighbours, and `Path.segments` reads it back:

* `Path.ofSegments_segments` — writing the segments of any path gives the path;
* `Path.segments_ofSegments` — reading what was written gives the names, as long as there
  is one and none of them holds a dot.

The second is where dot-free names matter: joining them is injective, so two places in a
tree of names never share a path.
-/

namespace SearchIndex

/-! ### Cutting and pasting -/

/-- A text without the separator is one piece. -/
theorem Text.split_of_not_mem {sep : Char} {cs : List Char} (h : sep ∉ cs) :
    Text.split sep cs = [cs] := by
  induction cs with
  | nil => rfl
  | cons c cs ih =>
    have hc : c ≠ sep := fun e => h (e ▸ List.mem_cons_self)
    rw [Text.split, if_neg hc, ih (fun hm => h (List.mem_cons_of_mem c hm))]

/-- Pasting the pieces together again gives the text. -/
theorem Text.intercalate_split (sep : Char) (cs : List Char) :
    [sep].intercalate (Text.split sep cs) = cs := by
  induction cs with
  | nil => rfl
  | cons c cs ih =>
    cases hp : Text.split sep cs with
    | nil => exact absurd hp (Text.split_ne_nil sep cs)
    | cons p ps =>
      rw [hp] at ih
      by_cases hc : c = sep
      · -- a separator starts a new piece, which is empty
        subst hc
        rw [Text.split, if_pos rfl, hp, List.intercalate_cons_cons, ih]
        rfl
      · rw [Text.split, if_neg hc, hp]
        -- the first piece grows by `c`, whether it is the only one or not
        cases ps with
        | nil => simpa using ih
        | cons q qs =>
          rw [List.intercalate_cons_cons] at ih ⊢
          rw [List.cons_append, List.cons_append, ih]

namespace Path

/-- The path through a list of names, from the outside in. -/
def ofSegments : List String → String
  | [] => ""
  | [name] => name
  | name :: next :: rest => join name (ofSegments (next :: rest))

@[simp] theorem ofSegments_singleton (name : String) : ofSegments [name] = name := rfl

theorem ofSegments_cons (name : String) {rest : List String} (h : rest ≠ []) :
    ofSegments (name :: rest) = join name (ofSegments rest) := by
  cases rest with
  | nil => exact absurd rfl h
  | cons next rest => rfl

theorem join_assoc (a b c : String) : join (join a b) c = join a (join b c) := by
  simp only [join, String.append_assoc]

/-- The path through two lists of names leads on from the one to the other. -/
theorem ofSegments_append {outer inner : List String} (ho : outer ≠ []) (hi : inner ≠ []) :
    ofSegments (outer ++ inner) = join (ofSegments outer) (ofSegments inner) := by
  induction outer with
  | nil => exact absurd rfl ho
  | cons name rest ih =>
    cases rest with
    | nil => exact ofSegments_cons name hi
    | cons next rest =>
      -- the join with `name` moves to the front of the join with the inner path
      rw [List.cons_append, ofSegments_cons name (by simp), ih (List.cons_ne_nil next rest),
        ofSegments_cons name (List.cons_ne_nil next rest), join_assoc]

/-- A path may end in a path that has been written already. -/
theorem ofSegments_append_singleton (outer : List String) {inner : List String}
    (h : inner ≠ []) : ofSegments (outer ++ [ofSegments inner]) = ofSegments (outer ++ inner) := by
  cases outer with
  | nil => rfl
  | cons name rest =>
    have hne : name :: rest ≠ [] := List.cons_ne_nil name rest
    rw [ofSegments_append hne (List.cons_ne_nil _ _), ofSegments_append hne h,
      ofSegments_singleton]

theorem segments_ne_nil (path : String) : segments path ≠ [] := by
  simp [segments, Text.split_ne_nil]

theorem segments_of_not_hasDot {name : String} (h : hasDot name = false) :
    segments name = [name] := by
  have hmem : '.' ∉ name.toList := by simpa [hasDot] using h
  simp [segments, Text.split_of_not_mem hmem]

/-- The characters of a path are those of its names with dots in between. -/
theorem toList_ofSegments (names : List String) :
    (ofSegments names).toList = ['.'].intercalate (names.map String.toList) := by
  induction names with
  | nil => rfl
  | cons name rest ih =>
    cases rest with
    | nil => simp
    | cons next rest =>
      rw [ofSegments_cons name (List.cons_ne_nil next rest), List.map_cons, List.map_cons,
        List.intercalate_cons_cons, ← List.map_cons, ← ih]
      simp [join]

/-- **Writing the segments of a path gives the path.** -/
theorem ofSegments_segments (path : String) : ofSegments (segments path) = path := by
  -- both sides as characters, where reading and writing are cutting and pasting
  rw [← String.toList_inj, toList_ofSegments, segments, List.map_map]
  have hid : String.toList ∘ String.ofList = id := funext fun cs => String.toList_ofList
  rw [hid, List.map_id, Text.intercalate_split]

/-- **Reading a written path gives its names**, if none of them holds a dot. -/
theorem segments_ofSegments {names : List String} (hne : names ≠ [])
    (h : ∀ name ∈ names, hasDot name = false) : segments (ofSegments names) = names := by
  induction names with
  | nil => exact absurd rfl hne
  | cons name rest ih =>
    have hname := segments_of_not_hasDot (h name List.mem_cons_self)
    cases rest with
    | nil => exact hname
    | cons next rest =>
      -- the first dot of the path is the one behind `name`, which has none itself
      rw [ofSegments_cons name (List.cons_ne_nil next rest), segments_join, hname,
        ih (List.cons_ne_nil next rest) (fun n hn => h n (List.mem_cons_of_mem name hn))]
      rfl

end Path

end SearchIndex
