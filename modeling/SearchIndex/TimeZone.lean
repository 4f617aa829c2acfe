import SearchIndex.Calendar
import SearchIndex.Error
import SearchIndex.Text.Blank

/-!
# Time zones

A time zone of a request has a name and an offset from universal time. It is made
from an explicit offset, whose text is then its name, or from the name of a zone
and an instant, which decides between summer and winter. What is sent to the engine
is the text of the offset (`TimeZone.offsetText`).

Which names there are, and which offset a zone has at an instant, is up to a database
of zones (`ZoneDatabase`). A database changes with the laws of the countries, so none is
fixed here; `ZoneDatabase.recorded` is one.
-/

namespace SearchIndex

/-- A database of time zones: under the name of a zone, the offsets from universal time, in
seconds east, that it has at instants, in seconds from the first of 1970. -/
structure ZoneDatabase where
  offsetAt? : String → Option (Int → Int)

/-- No zone is ever a day away from universal time. -/
def ZoneDatabase.InRange (zones : ZoneDatabase) : Prop :=
  ∀ name offsetAt, zones.offsetAt? name = some offsetAt →
    ∀ instant, (offsetAt instant).natAbs < 86400

/-- A named offset from universal time, in seconds east. -/
structure TimeZone where
  name : String
  offset : Int
deriving DecidableEq

namespace TimeZone

/-- The sign, hours and minutes of an offset; seconds are left out. -/
def textOfOffset (seconds : Int) : String :=
  let size := seconds.natAbs
  (if seconds < 0 then "-" else "+") ++ padded 2 (size / 3600) ++ ":" ++
    padded 2 (size % 3600 / 60)

/-- Universal time. -/
def utc : TimeZone := ⟨"UTC", 0⟩

/-- The zone of an explicit offset, named by its text. -/
def ofOffset (seconds : Int) : TimeZone := ⟨textOfOffset seconds, seconds⟩

/-- The text that stands for the zone in a request. -/
def offsetText (z : TimeZone) : String := textOfOffset z.offset

/-- Whether a text starts like an offset: with a sign or an ASCII digit. -/
def startsLikeOffset (cs : List Char) : Bool :=
  match cs with
  | c :: _ => c == '+' || c == '-' || c.isDigit
  | [] => false

/-- The zone of a name, blanks around it left out, with the offset in effect at an
instant. An offset is no name. -/
def ofNameAt (zones : ZoneDatabase) (name : String) (instant : Int) : Except Error TimeZone :=
  let bare := Text.trim name
  if startsLikeOffset bare.toList then .error (.validation (.offsetAsZone name))
  else match zones.offsetAt? bare with
    | none => .error (.validation (.unknownZone name))
    | some offsetAt => .ok ⟨bare, offsetAt instant⟩

/-- The zone of a name with its present offset, where the clock shows the instant `now`. -/
def ofName (zones : ZoneDatabase) (now : Int) (name : String) : Except Error TimeZone :=
  ofNameAt zones name now

end TimeZone

end SearchIndex
