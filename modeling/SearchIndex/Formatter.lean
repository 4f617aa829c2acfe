import SearchIndex.Calendar
import SearchIndex.Definition

/-!
# Formatters

A formatter shapes the values at the leaves of a decoded response. It sees the
field that a value was computed from, if there is one. Two are given: one leaves
every value as it is, and one knows the declared types of a definition and turns
epoch milliseconds of date fields into timestamps.
-/

namespace SearchIndex

/-- Shapes a leaf value, given the field it was computed from. -/
abbrev Formatter := Option String → Json → Json

namespace Formatter

/-- Leaves every value as it is. -/
def passthrough : Formatter := fun _ value => value

/-- The nearest integer that fits 64 bits with a sign. -/
def saturate (n : Int) : Int := max Number.least (min n Number.greatestSigned)

/-- The milliseconds that a number stands for: its whole part. -/
def millis? : Json → Option Int
  | .number (.int n) => some (saturate n)
  | .number (.real x) => some (saturate x.truncate)
  | _ => none

/-- Writes a number of milliseconds as a timestamp; any value that is no
representable instant stays as it is. -/
def date (value : Json) : Json :=
  match (millis? value).bind Instant.text? with
  | some text => .string text
  | none => value

/-- Writes the values of fields that a definition declares as dates as timestamps. -/
def ofDefinition (d : Definition) : Formatter := fun field value =>
  if (field.bind (fun path => d.find? path)).bind Field.declaredType? = some "date" then
    date value
  else value

end Formatter

end SearchIndex
