/-!
# Taking texts apart

`Text.split` cuts a text at every occurrence of a separator. There is one piece more than
there are separators, and a text in front of a separator is cut independently of the one
behind it (`Text.split_append`).
-/

namespace SearchIndex.Text

/-- The pieces of a text between separators; there is always at least one. -/
def split (sep : Char) : List Char → List (List Char)
  | [] => [[]]
  | c :: cs =>
    if c = sep then [] :: split sep cs
    else match split sep cs with
      | [] => [[c]]
      | p :: ps => (c :: p) :: ps

theorem split_ne_nil (sep : Char) (cs : List Char) : split sep cs ≠ [] := by
  cases cs with
  | nil => simp [split]
  | cons c cs =>
    unfold split
    split
    · simp
    · split <;> simp

/-- The pieces of two texts with a separator in between are those of the two texts. -/
theorem split_append (sep : Char) (cs ds : List Char) :
    split sep (cs ++ sep :: ds) = split sep cs ++ split sep ds := by
  induction cs with
  | nil => simp [split]
  | cons c cs ih =>
    by_cases h : c = sep
    · simp [split, h, ih]
    · simp only [List.cons_append, split, h, if_false, ih]
      cases hp : split sep cs with
      | nil => exact absurd hp (split_ne_nil sep cs)
      | cons p ps => simp

end SearchIndex.Text
