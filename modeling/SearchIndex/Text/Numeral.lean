/-!
# Numerals

What digits stand for, in decimal and in hexadecimal notation. The readers of the
various formats decide which digits they accept and where.
-/

namespace SearchIndex.Text

/-- The number that a list of decimal digits writes. -/
def decimalValue (cs : List Char) : Nat :=
  cs.foldl (fun n c => n * 10 + (c.toNat - 48)) 0

/-- The value of a hexadecimal digit. -/
def hexValue? (c : Char) : Option Nat :=
  if '0' ≤ c ∧ c ≤ '9' then some (c.toNat - 48)
  else if 'a' ≤ c ∧ c ≤ 'f' then some (c.toNat - 87)
  else if 'A' ≤ c ∧ c ≤ 'F' then some (c.toNat - 55)
  else none

/-- The number that a list of hexadecimal digits writes. -/
def hexNumber? (cs : List Char) : Option Nat :=
  cs.foldlM (fun n c => (hexValue? c).map (fun d => n * 16 + d)) 0

/-- The character whose number a list of hexadecimal digits writes. Surrogates and what
lies beyond Unicode are no characters. -/
def charOfHex? (digits : List Char) : Option Char :=
  (hexNumber? digits).bind (fun n => if n.isValidChar then some (Char.ofNat n) else none)

/-- An exponent behind its letter. -/
def exponentBody? (cs : List Char) : Option (Option Int × List Char) :=
  let (negative, rest) : Bool × List Char :=
    match cs with
    | '+' :: rest => (false, rest)
    | '-' :: rest => (true, rest)
    | _ => (false, cs)
  let digits := rest.takeWhile Char.isDigit
  if digits.isEmpty then none
  else
    let value : Int := decimalValue digits
    some (some (if negative then -value else value), rest.dropWhile Char.isDigit)

/-- An exponent, if the text starts with one. -/
def exponent? : List Char → Option (Option Int × List Char)
  | 'e' :: rest => exponentBody? rest
  | 'E' :: rest => exponentBody? rest
  | cs => some (none, cs)

end SearchIndex.Text
