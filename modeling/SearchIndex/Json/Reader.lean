import SearchIndex.Json
import SearchIndex.Text.Numeral

/-!
# Reading JSON text

`Json.read?` reads one value, with blanks around it, and refuses everything else.
A literal without fraction and exponent that fits 64 bits is an integer; any other
number is rounded to binary64, and one beyond that range is refused. A repeated
key keeps its first place and takes its last value.
-/

namespace SearchIndex.Json

/-- Whether a character may stand between the parts of a JSON text. -/
def isGap (c : Char) : Bool := c == ' ' || c == '\n' || c == '\r' || c == '\t'

/-- The text behind leading blanks. -/
def skipGap (cs : List Char) : List Char := cs.dropWhile isGap

/-- The four digits of a `\u` escape and what follows them. -/
def hexUnit? : List Char → Option (Nat × List Char)
  | a :: b :: c :: d :: rest => (Text.hexNumber? [a, b, c, d]).map (fun n => (n, rest))
  | _ => none

/-- The character of a simple escape. -/
def unescape? : Char → Option Char
  | '"' => some '"'
  | '\\' => some '\\'
  | '/' => some '/'
  | 'b' => some '\x08'
  | 'f' => some '\x0c'
  | 'n' => some '\n'
  | 'r' => some '\r'
  | 't' => some '\t'
  | _ => none

/-- The character of a `\u` escape, which may take a second escape behind it, and
the text that follows. -/
def unicodeEscape? (cs : List Char) : Option (Char × List Char) := do
  let (high, rest) ← hexUnit? cs
  if 0xDC00 ≤ high ∧ high < 0xE000 then none
  else if 0xD800 ≤ high ∧ high < 0xDC00 then
    match rest with
    | '\\' :: 'u' :: rest' =>
      let (low, rest'') ← hexUnit? rest'
      if 0xDC00 ≤ low ∧ low < 0xE000 then
        some (Char.ofNat (0x10000 + (high - 0xD800) * 0x400 + (low - 0xDC00)), rest'')
      else none
    | _ => none
  else some (Char.ofNat high, rest)

/-- The characters of a string behind its opening quote, and what follows the
closing one. Each step takes at least one character, so the length of the text is
fuel enough. -/
def stringBody? : Nat → List Char → List Char → Option (String × List Char)
  | 0, _, _ => none
  | fuel + 1, taken, cs =>
    match cs with
    | [] => none
    | '"' :: rest => some (String.ofList taken.reverse, rest)
    | '\\' :: 'u' :: rest =>
      (unicodeEscape? rest).bind (fun (c, rest') => stringBody? fuel (c :: taken) rest')
    | '\\' :: e :: rest => (unescape? e).bind (fun c => stringBody? fuel (c :: taken) rest)
    | c :: rest => if c.toNat < 32 then none else stringBody? fuel (c :: taken) rest

/-- A number literal taken apart. -/
structure Literal where
  negative : Bool
  whole : List Char
  fraction : Option (List Char)
  exponent : Option Int

/-- The value of a literal. -/
def Literal.number? (l : Literal) : Option Number :=
  let digits := Text.decimalValue l.whole
  let value : Int := if l.negative then -(digits : Int) else digits
  if l.fraction.isNone && l.exponent.isNone && decide (Number.least ≤ value) &&
      decide (value ≤ Number.greatest) && !(l.negative && digits == 0) then
    some (.int value)
  else
    let fraction := l.fraction.getD []
    (Quantity.ofDecimal l.negative (Text.decimalValue (l.whole ++ fraction))
      (l.exponent.getD 0 - fraction.length)).finite?.map .real

/-- A fraction, if the text starts with one; a point without digits is refused. -/
def fraction? : List Char → Option (Option (List Char) × List Char)
  | '.' :: rest =>
    let digits := rest.takeWhile Char.isDigit
    if digits.isEmpty then none else some (some digits, rest.dropWhile Char.isDigit)
  | cs => some (none, cs)

/-- A number at the start of a text, and what follows it. -/
def readNumber? (cs : List Char) : Option (Number × List Char) := do
  let (negative, rest) : Bool × List Char :=
    match cs with
    | '-' :: rest => (true, rest)
    | _ => (false, cs)
  let whole := rest.takeWhile Char.isDigit
  if whole.isEmpty || (whole.head? == some '0' && whole.length > 1) then none
  let (fraction, rest) ← fraction? (rest.dropWhile Char.isDigit)
  let (exponent, rest) ← Text.exponent? rest
  let number ← Literal.number? ⟨negative, whole, fraction, exponent⟩
  pure (number, rest)

mutual

/-- A value at the start of a text, and what follows it. -/
def readValue? : Nat → List Char → Option (Json × List Char)
  | 0, _ => none
  | fuel + 1, cs =>
    match skipGap cs with
    | 'n' :: 'u' :: 'l' :: 'l' :: rest => some (.null, rest)
    | 't' :: 'r' :: 'u' :: 'e' :: rest => some (.bool true, rest)
    | 'f' :: 'a' :: 'l' :: 's' :: 'e' :: rest => some (.bool false, rest)
    | '"' :: rest => (stringBody? rest.length.succ [] rest).map (fun (s, r) => (.string s, r))
    | '[' :: rest =>
      match skipGap rest with
      | ']' :: rest' => some (.array [], rest')
      | _ => (readItems? fuel [] rest).map (fun (items, r) => (.array items, r))
    | '\x7b' :: rest =>
      match skipGap rest with
      | '\x7d' :: rest' => some (.object .empty, rest')
      | _ => (readMembers? fuel .empty rest).map (fun (members, r) => (.object members, r))
    | cs' => (readNumber? cs').map (fun (n, r) => (.number n, r))

/-- The items of an array up to its closing bracket. -/
def readItems? : Nat → List Json → List Char → Option (List Json × List Char)
  | 0, _, _ => none
  | fuel + 1, taken, cs =>
    (readValue? fuel cs).bind (fun (v, rest) =>
      match skipGap rest with
      | ',' :: rest' => readItems? fuel (v :: taken) rest'
      | ']' :: rest' => some ((v :: taken).reverse, rest')
      | _ => none)

/-- The members of an object up to its closing brace. -/
def readMembers? : Nat → Document → List Char → Option (Document × List Char)
  | 0, _, _ => none
  | fuel + 1, taken, cs =>
    match skipGap cs with
    | '"' :: rest =>
      (stringBody? rest.length.succ [] rest).bind (fun (k, rest) =>
        match skipGap rest with
        | ':' :: rest =>
          (readValue? fuel rest).bind (fun (v, rest) =>
            match skipGap rest with
            | ',' :: rest' => readMembers? fuel (taken.insert k v) rest'
            | '\x7d' :: rest' => some (taken.insert k v, rest')
            | _ => none)
        | _ => none)
    | _ => none

end

/-- The value that a text writes. -/
def read? (text : String) : Option Json :=
  let cs := text.toList
  match readValue? (2 * cs.length + 2) cs with
  | some (v, rest) => if (skipGap rest).isEmpty then some v else none
  | none => none

end SearchIndex.Json
