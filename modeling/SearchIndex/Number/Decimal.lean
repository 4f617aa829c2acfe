import SearchIndex.Number.Binary64

/-!
# Decimal text of binary64 numbers

A finite number is written with the fewest decimal digits that identify it: of
all decimals that read back as the number, one with the least count of digits,
and of those the nearest. `Binary64.shortest` selects these digits by exact
integer arithmetic. How the digits are laid out is a separate matter, decided by
a `Decimal.Layout` record for each kind of output.
-/

namespace SearchIndex

/-- The decimal `digits * 10 ^ exponent`. -/
structure Decimal where
  digits : Nat
  exponent : Int
deriving DecidableEq

namespace Decimal

/-- Compares `a * 10 ^ i` with `n * 2 ^ j`. -/
def compareScaled (a : Nat) (i : Int) (n : Nat) (j : Int) : Ordering :=
  compare (a * wholePower 10 i * wholePower 2 (-j)) (n * wholePower 2 j * wholePower 10 (-i))

/-- Which of two decimals at the same distance is taken. -/
inductive Tie where
  | toEven
  | up

end Decimal

namespace Binary64

/-- Whether a decimal lies among the reals that round to the number: between the
halfway points to its two neighbours, which belong to the interval exactly when
the significand is even. Just above a power of two the lower neighbour is half as
far away as the upper one. -/
def readsBack (x : Binary64) (d : Decimal) : Bool :=
  let m := x.significand
  let narrow := m == binade && x.magnitude / binade > 1
  let low := if narrow then 4 * m - 1 else 4 * m - 2
  let atLow := Decimal.compareScaled d.digits d.exponent low (x.scale - 2)
  let atHigh := Decimal.compareScaled d.digits d.exponent (4 * m + 2) (x.scale - 2)
  let inclusive := m % 2 == 0
  (atLow == .gt || (inclusive && atLow == .eq)) && (atHigh == .lt || (inclusive && atHigh == .eq))

/-- The least `k` with the value below `10 ^ k`, looked for upwards from a guess
that is not above it. -/
def decimalCeiling (x : Binary64) : Nat → Int → Int
  | 0, guess => guess
  | fuel + 1, guess =>
    if Decimal.compareScaled 1 guess x.significand x.scale == .gt then guess
    else x.decimalCeiling fuel (guess + 1)

/-- The decimal exponent one above that of the leading digit. -/
def magnitude10 (x : Binary64) : Int :=
  x.decimalCeiling 4 (((x.significand.log2 : Int) + x.scale) * 30103 / 100000 - 1)

/-- The neighbours of the value on the grid of the multiples of `10 ^ exponent`
that read back, the nearer one if both do. -/
def onGrid? (x : Binary64) (tie : Decimal.Tie) (exponent : Int) : Option Decimal :=
  let num := x.significand * wholePower 2 x.scale * wholePower 10 (-exponent)
  let den := wholePower 2 (-x.scale) * wholePower 10 exponent
  let below : Decimal := ⟨num / den, exponent⟩
  let above : Decimal := ⟨num / den + 1, exponent⟩
  match x.readsBack below, x.readsBack above with
  | false, false => none
  | true, false => some below
  | false, true => some above
  | true, true =>
    match compare (2 * (num % den)) den, tie with
    | .lt, _ => some below
    | .gt, _ => some above
    | .eq, .up => some above
    | .eq, .toEven => some (if num / den % 2 == 0 then below else above)

/-- The exact decimal value of the number. -/
def exactDecimal (x : Binary64) : Decimal :=
  if 0 ≤ x.scale then ⟨x.significand * wholePower 2 x.scale, 0⟩
  else ⟨x.significand * wholePower 5 (-x.scale), x.scale⟩

end Binary64

namespace Decimal

/-- The same decimal without zeros at the end of its digits. -/
def stripZeros : Nat → Decimal → Decimal
  | 0, d => d
  | fuel + 1, d =>
    if d.digits ≠ 0 ∧ d.digits % 10 = 0 then stripZeros fuel ⟨d.digits / 10, d.exponent + 1⟩
    else d

end Decimal

namespace Binary64

/-- The decimal with the fewest digits that reads back as the magnitude of the
number, the nearest one of those. Grids are tried from coarse to fine; seventeen
digits always suffice. -/
def shortest (x : Binary64) (tie : Decimal.Tie) : Decimal :=
  if x.magnitude = 0 then ⟨0, 0⟩ else
  let top := x.magnitude10
  let found := (List.range 17).findSome? (fun (n : Nat) => x.onGrid? tie (top - 1 - n))
  (found.getD x.exactDecimal).stripZeros 400

end Binary64

namespace Decimal

/-- The decisions of an output format on how a decimal is laid out. -/
structure Layout where
  /-- Least and greatest exponent of the leading digit that are written
  positionally, or all of them. -/
  positional : Option (Int × Int)
  /-- Whether whole numbers carry a point and a zero. -/
  pointZero : Bool
  /-- Which of two equally near decimals is written. -/
  tie : Tie

/-- The digits of a natural number, most significant first. -/
def digitChars (n : Nat) : List Char := Nat.toDigits 10 n

/-- The digits with the point where the exponent puts it. -/
def positional (pointZero : Bool) (d : Decimal) : List Char :=
  let ds := digitChars d.digits
  let point : Int := ds.length + d.exponent
  if 0 ≤ d.exponent then
    ds ++ List.replicate d.exponent.toNat '0' ++ (if pointZero then ['.', '0'] else [])
  else if 0 < point then ds.take point.toNat ++ '.' :: ds.drop point.toNat
  else '0' :: '.' :: (List.replicate (-point).toNat '0' ++ ds)

/-- The exponent of the leading digit. -/
def leading (d : Decimal) : Int := ((digitChars d.digits).length : Int) - 1 + d.exponent

/-- One digit, the others behind a point, and a signed exponent. -/
def scientific (d : Decimal) : List Char :=
  let ds := digitChars d.digits
  let fraction := if ds.length ≤ 1 then [] else '.' :: ds.drop 1
  let exponent := (if d.leading < 0 then '-' else '+') :: digitChars d.leading.natAbs
  ds.take 1 ++ fraction ++ 'e' :: exponent

/-- Lays out a decimal without zeros at the end of its digits. -/
def Layout.chars (layout : Layout) (d : Decimal) : List Char :=
  match layout.positional with
  | none => d.positional layout.pointZero
  | some (least, greatest) =>
    if least ≤ d.leading ∧ d.leading ≤ greatest then d.positional layout.pointZero
    else d.scientific

/-- The text of a number in a layout; the sign of zero is written. -/
def Layout.render (layout : Layout) (x : Binary64) : String :=
  let body := layout.chars (x.shortest layout.tie)
  String.ofList (if x.negative then '-' :: body else body)

end Decimal

end SearchIndex
