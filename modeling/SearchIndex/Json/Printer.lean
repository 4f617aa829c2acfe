import SearchIndex.Json

/-!
# JSON text

Two ways to write a value: on one line without blanks, and spread over lines with
an indentation of two. Both write members in their order, floats by
`Json.numberLayout`, and in strings they escape the quote, the backslash and the
control characters only.
-/

namespace SearchIndex.Json

/-- Numbers with a fraction always show a point; below `1e-5` and from `1e16` on
they have a signed exponent. Of two equally near decimals the even one is
written. -/
def numberLayout : Decimal.Layout where
  positional := some (-5, 15)
  pointZero := true
  tie := .toEven

/-- The text of a number. -/
def numberText : Number → String
  | .int n => toString n
  | .real x => numberLayout.render x

/-- The hexadecimal digit of a number below sixteen, in lower case. -/
def hexDigit (n : Nat) : Char := if n < 10 then Char.ofNat (48 + n) else Char.ofNat (87 + n)

/-- A character of a string as it is written. -/
def escape (c : Char) : List Char :=
  if c = '"' then ['\\', '"']
  else if c = '\\' then ['\\', '\\']
  else if c = '\n' then ['\\', 'n']
  else if c = '\r' then ['\\', 'r']
  else if c = '\t' then ['\\', 't']
  else if c = '\x08' then ['\\', 'b']
  else if c = '\x0c' then ['\\', 'f']
  else if c.toNat < 32 then
    ['\\', 'u', '0', '0', hexDigit (c.toNat / 16), hexDigit (c.toNat % 16)]
  else [c]

/-- A string between quotes. -/
def quote (s : String) : String :=
  String.ofList ('"' :: (s.toList.flatMap escape ++ ['"']))

mutual

/-- The value on one line, without blanks. -/
def compact : Json → String
  | .null => "null"
  | .bool b => if b then "true" else "false"
  | .number n => numberText n
  | .string s => quote s
  | .array items => "[" ++ ",".intercalate (compactItems items) ++ "]"
  | .object ⟨members⟩ => "\x7b" ++ ",".intercalate (compactMembers members) ++ "\x7d"

/-- Each item on one line. -/
def compactItems : List Json → List String
  | [] => []
  | v :: rest => v.compact :: compactItems rest

/-- Each member on one line. -/
def compactMembers : List (String × Json) → List String
  | [] => []
  | (k, v) :: rest => (quote k ++ ":" ++ v.compact) :: compactMembers rest

end

/-- The lines of a bracketed block: the bodies, each indented and all but the last
with a comma. -/
def block (opening closing indent : String) (bodies : List String) : String :=
  let inner := indent ++ "  "
  opening ++ "\n" ++ ",\n".intercalate (bodies.map (fun b => inner ++ b)) ++ "\n" ++
    indent ++ closing

mutual

/-- The value over several lines, the first of which is already indented. -/
def prettyAt (indent : String) : Json → String
  | .null => "null"
  | .bool b => if b then "true" else "false"
  | .number n => numberText n
  | .string s => quote s
  | .array [] => "[]"
  | .array (v :: items) =>
    block "[" "]" indent (prettyAt (indent ++ "  ") v :: prettyItems (indent ++ "  ") items)
  | .object ⟨[]⟩ => "\x7b\x7d"
  | .object ⟨(k, v) :: members⟩ =>
    block "\x7b" "\x7d" indent
      ((quote k ++ ": " ++ prettyAt (indent ++ "  ") v) :: prettyMembers (indent ++ "  ") members)

/-- Each item over several lines. -/
def prettyItems (indent : String) : List Json → List String
  | [] => []
  | v :: rest => prettyAt indent v :: prettyItems indent rest

/-- Each member over several lines. -/
def prettyMembers (indent : String) : List (String × Json) → List String
  | [] => []
  | (k, v) :: rest => (quote k ++ ": " ++ prettyAt indent v) :: prettyMembers indent rest

end

/-- The value over several lines, with an indentation of two. -/
def pretty (v : Json) : String := prettyAt "" v

end SearchIndex.Json
