/-!
# Binary64 numbers

Numbers with a fraction are kept to the precision of the binary64 format. A
`Binary64` is a finite number of that format, given by its sign and by the lower
63 bits of its pattern, read as a natural number: these *magnitudes* are ordered
as the values are, so the signed magnitude `Binary64.key` orders the numbers and
identifies the two zeros. A `Quantity` adds the infinities and the value that is
not a number.

`Quantity.ofDecimal` rounds a decimal to the nearest number of the format, a tie
going to the even significand; all of it is exact arithmetic on integers.
-/

namespace SearchIndex

/-- The power of a base with an exponent, or one if the exponent is negative. -/
def wholePower (base : Nat) (exponent : Int) : Nat := Nat.pow base exponent.toNat

/-- A finite binary64 number: a sign, and a magnitude below the pattern of
infinity. -/
structure Binary64 where
  negative : Bool
  magnitude : Nat
  finite : magnitude < 0x7FF0000000000000
deriving DecidableEq

namespace Binary64

/-- Positive zero. -/
def zero : Binary64 := ⟨false, 0, by decide⟩

instance : Inhabited Binary64 := ⟨zero⟩

/-- The position of the number in the order of the values. -/
def key (x : Binary64) : Int := if x.negative then -(x.magnitude : Int) else x.magnitude

/-- The number of magnitudes that share an exponent, which is the 52nd power of two. -/
def binade : Nat := 0x10000000000000

/-- The integer `m` of the exact value `m * 2 ^ q`, without the sign. -/
def significand (x : Binary64) : Nat :=
  if x.magnitude / binade = 0 then x.magnitude else binade + x.magnitude % binade

/-- The exponent `q` of the exact value `m * 2 ^ q`. -/
def scale (x : Binary64) : Int :=
  if x.magnitude / binade = 0 then -1074 else (x.magnitude / binade : Nat) - 1075

/-- Whether the two numbers are equal as values; the two zeros are. -/
def same (x y : Binary64) : Bool := x.key == y.key

/-- The value without its fraction. -/
def truncate (x : Binary64) : Int :=
  let whole : Nat := x.significand * wholePower 2 x.scale / wholePower 2 (-x.scale)
  if x.negative then -(whole : Int) else whole

@[simp] theorem same_iff (x y : Binary64) : x.same y = true ↔ x.key = y.key := by
  simp [same]

end Binary64

/-- A binary64 value that a caller may pass: a finite number, an infinity, or no
number at all. -/
inductive Quantity where
  | finite (value : Binary64)
  | infinite (negative : Bool)
  | notANumber
deriving DecidableEq

namespace Quantity

/-- The number, if it is finite. -/
def finite? : Quantity → Option Binary64
  | .finite x => some x
  | _ => none

/-- The position in the order of the values; what is no number has none. -/
def key? : Quantity → Option Int
  | .finite x => some x.key
  | .infinite negative => some (if negative then -0x7FF0000000000000 else 0x7FF0000000000000)
  | .notANumber => none

/-- Whether the first value lies above the second; nothing lies above or below
what is no number. -/
def above (x y : Quantity) : Bool :=
  match x.key?, y.key? with
  | some a, some b => decide (b < a)
  | _, _ => false

/-- Whether the value is finite and greater than zero. -/
def isPositive (x : Quantity) : Bool :=
  match x with
  | .finite value => decide (0 < value.key)
  | _ => false

/-- `num / den` to the nearest integer, a tie going to the even one. -/
def roundHalfEven (num den : Nat) : Nat :=
  let quotient := num / den
  let rest := num % den
  if 2 * rest < den then quotient
  else if den < 2 * rest then quotient + 1
  else if quotient % 2 = 0 then quotient else quotient + 1

/-- The value with a given magnitude; from the pattern of infinity on, infinity. -/
def ofMagnitude (negative : Bool) (magnitude : Nat) : Quantity :=
  if h : magnitude < 0x7FF0000000000000 then .finite ⟨negative, magnitude, h⟩
  else .infinite negative

/-- The whole part of the binary logarithm of `num / den`. -/
def floorLog2 (num den : Nat) : Int :=
  let estimate : Int := (num.log2 : Int) - den.log2
  if den * wholePower 2 estimate ≤ num * wholePower 2 (-estimate) then estimate
  else estimate - 1

/-- The value nearest to the positive fraction `num / den`. The significand has
53 bits, or fewer where the exponent would fall below that of the least number. -/
def ofFraction (negative : Bool) (num den : Nat) : Quantity :=
  let scale : Int := max (floorLog2 num den - 52) (-1074)
  let significand := roundHalfEven (num * wholePower 2 (-scale)) (den * wholePower 2 scale)
  ofMagnitude negative ((scale + 1074).toNat * Binary64.binade + significand)

/-- The value nearest to `digits * 10 ^ exponent`. Beyond the decimal exponents
of the format the answer is infinity or zero without any arithmetic. -/
def ofDecimal (negative : Bool) (digits : Nat) (exponent : Int) : Quantity :=
  let length : Int := (Nat.toDigits 10 digits).length
  if digits = 0 then .finite ⟨negative, 0, by decide⟩
  else if 310 < exponent + length then .infinite negative
  else if exponent + length < -330 then .finite ⟨negative, 0, by decide⟩
  else ofFraction negative (digits * wholePower 10 exponent) (wholePower 10 (-exponent))

/-- The value nearest to an integer. -/
def ofInt (n : Int) : Quantity := ofDecimal (decide (n < 0)) n.natAbs 0

end Quantity

example : (Quantity.ofDecimal false 1 (-1)).key? = some 0x3FB999999999999A := by decide +kernel
example : (Quantity.ofDecimal false 5 (-324)).key? = some 1 := by decide +kernel
example : Quantity.ofDecimal true 18 308 = .infinite true := by decide +kernel

end SearchIndex
