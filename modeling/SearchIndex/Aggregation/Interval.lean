import SearchIndex.Text.DecimalDigit

/-!
# Date intervals

An interval is a count and a unit, such as `30s` or `2w`, or the name of a calendar
unit. The digits of the count may be decimal digits of any script.
-/

namespace SearchIndex.Interval

/-- The units that follow a count. -/
def units : List String := ["ms", "s", "m", "h", "d", "w", "M", "q", "y"]

/-- The intervals that are named without a count. -/
def calendarUnits : List String :=
  ["year", "quarter", "month", "week", "day", "hour", "minute", "second"]

/-- Whether a text is an interval. -/
def isInterval (text : String) : Bool :=
  let cs := text.toList
  let count := cs.takeWhile Text.isDecimalDigit
  let unit := String.ofList (cs.dropWhile Text.isDecimalDigit)
  calendarUnits.contains text || (!count.isEmpty && units.contains unit)

end SearchIndex.Interval
