import SearchIndex.Text.Split

/-!
# Dotted paths

A path names a field by the names of the fields around it, from the outside in,
with a dot between neighbours. `Path.segments` takes it apart: a path without a
dot is one segment, and empty segments are kept, so joining two paths joins their
segments (`Path.segments_join`).
-/

namespace SearchIndex.Path

/-- The segments of a path. -/
def segments (path : String) : List String := (Text.split '.' path.toList).map String.ofList

/-- The path that leads on from `outer` to `inner`. -/
def join (outer inner : String) : String := outer ++ "." ++ inner

/-- Whether a text contains a dot. -/
def hasDot (s : String) : Bool := s.toList.contains '.'

/-- The segments of a joined path are those of its two parts. -/
theorem segments_join (outer inner : String) :
    segments (join outer inner) = segments outer ++ segments inner := by
  simp [segments, join, Text.split_append]

end SearchIndex.Path
