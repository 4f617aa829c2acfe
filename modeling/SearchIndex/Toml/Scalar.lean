import SearchIndex.Calendar
import SearchIndex.Text.Numeral
import SearchIndex.Toml.Value

/-!
# Scalars of a TOML text

The functions here read one scalar at the start of a text and give what follows it; they
fail where there is none or where it is malformed.
-/

namespace SearchIndex.Toml

/-- Whether a character is a space or a tab. -/
def isBlank (c : Char) : Bool := c == ' ' || c == '\t'

/-- Whether a character may stand in a comment or between quotes. -/
def isText (c : Char) : Bool := c == '\t' || (' ' ≤ c && c ≤ '~') || '\u0080' ≤ c

/-- The text behind a line break, if it starts with one. -/
def lineBreak? : List Char → Option (List Char)
  | '\n' :: rest => some rest
  | '\r' :: '\n' :: rest => some rest
  | _ => none

/-- The text behind a line break, or the whole text if it starts with none. -/
def skipLineBreak (cs : List Char) : List Char := (lineBreak? cs).getD cs

/-! ### Strings -/

/-- The character of an escape of one letter. -/
def unescape? : Char → Option Char
  | 'b' => some '\x08'
  | 't' => some '\t'
  | 'n' => some '\n'
  | 'f' => some '\x0c'
  | 'r' => some '\r'
  | '"' => some '"'
  | '\\' => some '\\'
  | _ => none

/-- An escape behind its backslash, and what follows it. -/
def escape? : List Char → Option (Char × List Char)
  | 'u' :: rest => (Text.charOfHex? (rest.take 4)).bind (fun c =>
    if rest.length < 4 then none else some (c, rest.drop 4))
  | 'U' :: rest => (Text.charOfHex? (rest.take 8)).bind (fun c =>
    if rest.length < 8 then none else some (c, rest.drop 8))
  | c :: rest => (unescape? c).map (fun ch => (ch, rest))
  | [] => none

/-- What remains of a string between double quotes, with fuel for every character. -/
def basicFrom : Nat → List Char → List Char → Option (String × List Char)
  | 0, _, _ => none
  | fuel + 1, taken, cs =>
    match cs with
    | [] => none
    | '"' :: rest => some (String.ofList taken.reverse, rest)
    | '\\' :: rest => (escape? rest).bind (fun (c, rest) => basicFrom fuel (c :: taken) rest)
    | c :: rest => if isText c then basicFrom fuel (c :: taken) rest else none

/-- A string between single quotes, behind the first one. -/
def literal? (cs : List Char) : Option (String × List Char) :=
  match cs.dropWhile (fun c => isText c && c != '\'') with
  | '\'' :: rest => some (String.ofList (cs.takeWhile (fun c => isText c && c != '\'')), rest)
  | _ => none

/-- The text behind blanks and line breaks. -/
def skipBlankLines : List Char → List Char
  | '\r' :: '\n' :: rest => skipBlankLines rest
  | c :: rest => if isBlank c || c == '\n' then skipBlankLines rest else c :: rest
  | [] => []

/-- The text behind a line's end that a backslash joins with what follows: blanks up to
the end of the line, and all blanks and line breaks behind it. -/
def joinLines? (cs : List Char) : Option (List Char) :=
  (lineBreak? (cs.dropWhile isBlank)).map skipBlankLines

/-- What remains of a string of several lines between triple quotes, with fuel for every
character. Up to two quotes may stand in front of the closing ones. Escapes are known
only between double quotes. -/
def linesFrom (quote : Char) : Nat → List Char → List Char → Option (String × List Char)
  | 0, _, _ => none
  | fuel + 1, taken, cs =>
    let quotes := (cs.takeWhile (fun c => c == quote)).length
    if 3 ≤ quotes then
      let inner := min (quotes - 3) 2
      some (String.ofList (List.replicate inner quote ++ taken).reverse, cs.drop (inner + 3))
    else
      match cs with
      | [] => none
      | c :: rest =>
        if c = '\\' ∧ quote = '"' then
          match joinLines? rest with
          | some rest => linesFrom quote fuel taken rest
          | none => (escape? rest).bind (fun (c, rest) => linesFrom quote fuel (c :: taken) rest)
        else
          match lineBreak? cs with
          | some rest => linesFrom quote fuel ('\n' :: taken) rest
          | none => if isText c then linesFrom quote fuel (c :: taken) rest else none

/-- A string in any of its four notations. A line break behind triple quotes does not
count. -/
def string? : List Char → Option (String × List Char)
  | '"' :: '"' :: '"' :: rest => linesFrom '"' (rest.length + 1) [] (skipLineBreak rest)
  | '\'' :: '\'' :: '\'' :: rest => linesFrom '\'' (rest.length + 1) [] (skipLineBreak rest)
  | '"' :: rest => basicFrom (rest.length + 1) [] rest
  | '\'' :: rest => literal? rest
  | _ => none

/-! ### Numbers -/

/-- Digits in groups: single underscores between digits are taken out. -/
def ungroup? (isDigit : Char → Bool) : List Char → Option (List Char)
  | [] => none
  | [c] => if isDigit c then some [c] else none
  | c :: '_' :: rest => if isDigit c then (ungroup? isDigit rest).map (c :: ·) else none
  | c :: rest => if isDigit c then (ungroup? isDigit rest).map (c :: ·) else none

/-- The number that grouped digits of a base write. -/
def natural? (base : Nat) (cs : List Char) : Option Nat :=
  (ungroup? (fun c => (Text.hexValue? c).any (fun d => d < base)) cs).bind (fun digits =>
    digits.foldlM (fun n c => (Text.hexValue? c).map (fun d => n * base + d)) 0)

/-- Grouped decimal digits, of which the first is no zero unless it is the only one. -/
def whole? (cs : List Char) : Option (List Char) :=
  if cs.head? == some '0' && cs.length > 1 then none else ungroup? Char.isDigit cs

/-- A text without its sign, and whether that is a minus. -/
def unsigned : List Char → Bool × List Char
  | '-' :: rest => (true, rest)
  | '+' :: rest => (false, rest)
  | cs => (false, cs)

/-- The integer that a text writes, if it fits 64 bits. A base other than ten is stated
in front, and there is no sign then. -/
def integer? (cs : List Char) : Option Int :=
  let value : Option Int := match cs with
    | '0' :: 'x' :: rest => (natural? 16 rest).map Int.ofNat
    | '0' :: 'o' :: rest => (natural? 8 rest).map Int.ofNat
    | '0' :: 'b' :: rest => (natural? 2 rest).map Int.ofNat
    | _ =>
      let (negative, digits) := unsigned cs
      (whole? digits).map (fun ds =>
        let n : Int := Text.decimalValue ds
        if negative then -n else n)
  value.filter (fun n => decide (-0x8000000000000000 ≤ n ∧ n < 0x8000000000000000))

/-- The exponent that a text writes behind its letter. -/
def exponent? (cs : List Char) : Option Int :=
  let (negative, digits) := unsigned cs
  (ungroup? Char.isDigit digits).map (fun ds =>
    let n : Int := Text.decimalValue ds
    if negative then -n else n)

/-- The number with a fraction, an exponent or both that a text writes. One that rounds
to positive infinity is refused. -/
def decimal? (cs : List Char) : Option Quantity := do
  let (negative, body) := unsigned cs
  let inMantissa (c : Char) : Bool := c.isDigit || c == '_'
  let digits ← whole? (body.takeWhile inMantissa)
  let (fraction, rest) ← match body.dropWhile inMantissa with
    | '.' :: rest =>
      (ungroup? Char.isDigit (rest.takeWhile inMantissa)).map (fun f =>
        (f, rest.dropWhile inMantissa))
    | rest => if rest.isEmpty then none else some ([], rest)
  let exponent ← match rest with
    | [] => some 0
    | 'e' :: rest => exponent? rest
    | 'E' :: rest => exponent? rest
    | _ => none
  let value := Quantity.ofDecimal negative (Text.decimalValue (digits ++ fraction))
    (exponent - fraction.length)
  if value = .infinite false then none else some value

/-- The real number, the infinity or the lack of a number that a text writes. -/
def real? (cs : List Char) : Option Quantity :=
  match unsigned cs with
  | (negative, ['i', 'n', 'f']) => some (.infinite negative)
  | (_, ['n', 'a', 'n']) => some .notANumber
  | _ => decimal? cs

/-! ### Dates and times -/

/-- The text behind a date that exists, if it starts with one. -/
def date? (cs : List Char) : Option (List Char) :=
  match cs with
  | a :: b :: c :: d :: '-' :: e :: f :: '-' :: g :: h :: rest =>
    let date : Date := ⟨Text.decimalValue [a, b, c, d], Text.decimalValue [e, f],
      Text.decimalValue [g, h]⟩
    if [a, b, c, d, e, f, g, h].all Char.isDigit && Date.ofDays date.toDays == date then some rest
    else none
  | _ => none

/-- Whether two characters are digits of a number up to a limit. -/
def isUpTo (limit : Nat) (a b : Char) : Bool :=
  a.isDigit && b.isDigit && decide (Text.decimalValue [a, b] ≤ limit)

/-- The text behind a time of day, if it starts with one. A minute may have a leap
second. -/
def time? (cs : List Char) : Option (List Char) :=
  match cs with
  | a :: b :: ':' :: c :: d :: ':' :: e :: f :: rest =>
    if isUpTo 23 a b && isUpTo 59 c d && isUpTo 60 e f then
      match rest with
      | '.' :: digits =>
        if digits.head?.any Char.isDigit then some (digits.dropWhile Char.isDigit) else none
      | _ => some rest
    else none
  | _ => none

/-- The text behind an offset from universal time; there may be none. -/
def skipOffset (cs : List Char) : List Char :=
  match cs with
  | 'Z' :: rest => rest
  | 'z' :: rest => rest
  | sign :: a :: b :: ':' :: c :: d :: rest =>
    if (sign == '+' || sign == '-') && isUpTo 23 a b && isUpTo 59 c d then rest else cs
  | _ => cs

/-- The text behind a date, a time or both, if it starts with one. A date and a time
have a T or a space between them. -/
def moment? (cs : List Char) : Option (List Char) :=
  match date? cs with
  | none => time? cs
  | some rest =>
    match rest with
    | [] => some []
    | c :: behind =>
      match time? behind with
      | some after =>
        if c == 'T' || c == 't' || c == ' ' then some (skipOffset after) else some rest
      | none => some rest

/-- Whether a character may belong to a scalar without quotes. -/
def isBare (c : Char) : Bool := c.isAlphanum || c == '_' || c == '-' || c == '+' || c == '.'

/-- A truth value, a number or a moment. -/
def bare? (cs : List Char) : Option (Value × List Char) :=
  match moment? cs with
  | some rest => some (.moment, rest)
  | none =>
    let word := cs.takeWhile isBare
    let value :=
      if word = "true".toList then some (.bool true)
      else if word = "false".toList then some (.bool false)
      else match integer? word with
        | some n => some (.integer n)
        | none => (real? word).map .real
    value.map (fun v => (v, cs.dropWhile isBare))

/-- A scalar. -/
def scalar? (cs : List Char) : Option (Value × List Char) :=
  match cs with
  | '"' :: _ => (string? cs).map (fun (s, rest) => (.string s, rest))
  | '\'' :: _ => (string? cs).map (fun (s, rest) => (.string s, rest))
  | _ => bare? cs

end SearchIndex.Toml
