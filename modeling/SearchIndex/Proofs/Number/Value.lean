import Mathlib.Algebra.Order.Floor.Ring
import Mathlib.Algebra.Order.Ring.Int
import Mathlib.Data.Rat.Floor
import Mathlib.Tactic.Linarith
import SearchIndex.Json

/-!
# What numbers stand for

A binary64 number is kept as a sign and a magnitude, which says by its place in the order of
the patterns where the value lies. Here the value itself is written down, as the rational number
`m * 2 ^ q` with the sign in front (`Binary64.value`), and the two shortcuts that the library
takes are compared with it:

* `Binary64.value_le_value_iff` — signed magnitudes are ordered as the values are. One step up
  among the magnitudes is one step up among the values (`Binary64.magnitudeValue_lt_succ`), also
  where it carries into the exponent;
* `Binary64.truncate_eq` — the fraction is cut off in the direction of zero.
-/

namespace SearchIndex

/-- What is left of a number when its fraction is cut off. -/
def towardZero (q : ℚ) : ℤ := if 0 ≤ q then ⌊q⌋ else ⌈q⌉

theorem towardZero_intCast (n : ℤ) : towardZero n = n := by
  unfold towardZero
  rw [Int.floor_intCast, Int.ceil_intCast, ite_self]

namespace Binary64

/-- The value of a magnitude, which is an exponent in front of 52 bits. -/
def magnitudeValue (n : ℕ) : ℚ :=
  ((if n / binade = 0 then n else binade + n % binade : ℕ) : ℚ) *
    2 ^ (if n / binade = 0 then (-1074 : ℤ) else (n / binade : ℕ) - 1075)

/-- The value of a number. -/
def value (x : Binary64) : ℚ :=
  if x.negative then -((x.significand : ℚ) * 2 ^ x.scale) else (x.significand : ℚ) * 2 ^ x.scale

theorem value_eq (x : Binary64) :
    x.value = if x.negative then -magnitudeValue x.magnitude else magnitudeValue x.magnitude := rfl

/-! ### The order of the values -/

theorem magnitudeValue_zero : magnitudeValue 0 = 0 := by
  unfold magnitudeValue
  rw [if_pos (Nat.zero_div binade), Nat.cast_zero, zero_mul]

/-- **One step up among the magnitudes is one step up among the values.** -/
theorem magnitudeValue_lt_succ (n : ℕ) : magnitudeValue n < magnitudeValue (n + 1) := by
  have hpos : ∀ q : ℤ, (0 : ℚ) < 2 ^ q := fun q => zpow_pos (by norm_num) q
  unfold magnitudeValue binade
  by_cases hcarry : (n + 1) % 0x10000000000000 = 0
  · -- the bits are full: the exponent goes up, and the bits start again
    have hdiv : (n + 1) / 0x10000000000000 = n / 0x10000000000000 + 1 := by omega
    have hrest : n % 0x10000000000000 = 0x10000000000000 - 1 := by omega
    rw [hdiv, hcarry, if_neg (Nat.succ_ne_zero _), if_neg (Nat.succ_ne_zero _)]
    by_cases hzero : n / 0x10000000000000 = 0
    · -- the step out of the lowest binade, where the exponent counts as the next one does
      have hn : n = 0x10000000000000 - 1 := by omega
      rw [if_pos hzero, if_pos hzero, hzero]
      refine mul_lt_mul_of_pos_right ?_ (hpos _)
      exact_mod_cast (by omega : n < 0x10000000000000 + 0)
    · -- the unit doubles, so that the next significand counts twice as much
      rw [if_neg hzero, if_neg hzero, hrest]
      have hscale : ((n / 0x10000000000000 + 1 : ℕ) : ℤ) - 1075 =
          ((n / 0x10000000000000 : ℕ) - 1075) + 1 := by
        push_cast
        ring
      rw [hscale, zpow_add_one₀ (by norm_num), mul_comm ((2 : ℚ) ^ _) 2, ← mul_assoc]
      refine mul_lt_mul_of_pos_right ?_ (hpos _)
      exact_mod_cast (by decide :
        0x10000000000000 + (0x10000000000000 - 1) < (0x10000000000000 + 0) * 2)
  · -- the exponent stays
    have hdiv : (n + 1) / 0x10000000000000 = n / 0x10000000000000 := by omega
    have hrest : (n + 1) % 0x10000000000000 = n % 0x10000000000000 + 1 := by omega
    rw [hdiv, hrest]
    refine mul_lt_mul_of_pos_right ?_ (hpos _)
    split
    · exact_mod_cast n.lt_succ_self
    · exact_mod_cast (by omega : 0x10000000000000 + n % 0x10000000000000 <
        0x10000000000000 + (n % 0x10000000000000 + 1))

theorem magnitudeValue_strictMono : StrictMono magnitudeValue :=
  strictMono_nat_of_lt_succ magnitudeValue_lt_succ

theorem magnitudeValue_nonneg (n : ℕ) : 0 ≤ magnitudeValue n := by
  rw [← magnitudeValue_zero]
  exact magnitudeValue_strictMono.monotone n.zero_le

/-- **Signed magnitudes are ordered as the values are.** -/
theorem value_le_value_iff (x y : Binary64) : x.value ≤ y.value ↔ x.key ≤ y.key := by
  rw [value_eq, value_eq]
  unfold key
  have hmono : ∀ m n, magnitudeValue m ≤ magnitudeValue n ↔ m ≤ n := fun m n =>
    magnitudeValue_strictMono.le_iff_le
  have hzero : ∀ n, magnitudeValue n = 0 ↔ n = 0 := fun n => by
    rw [← magnitudeValue_zero, magnitudeValue_strictMono.injective.eq_iff]
  have hx := magnitudeValue_nonneg x.magnitude
  have hy := magnitudeValue_nonneg y.magnitude
  cases x.negative <;> cases y.negative
  · simp [hmono]
  · -- only zeros lie on the wrong side
    have : magnitudeValue x.magnitude ≤ -magnitudeValue y.magnitude ↔
        magnitudeValue x.magnitude = 0 ∧ magnitudeValue y.magnitude = 0 :=
      ⟨fun h => ⟨by linarith, by linarith⟩, fun h => by rw [h.1, h.2, neg_zero]⟩
    simp only [if_true, Bool.false_eq_true, if_false, this, hzero]
    omega
  · -- a number below zero and one above
    have : -magnitudeValue x.magnitude ≤ magnitudeValue y.magnitude := by linarith
    simp only [if_true, Bool.false_eq_true, if_false, this, true_iff]
    omega
  · simp [hmono]

/-! ### Cutting off the fraction -/

/-- One of the two powers is one, so that they make the power of a negative exponent, too. -/
theorem wholePower_div (e : ℤ) : (wholePower 2 e : ℚ) / wholePower 2 (-e) = 2 ^ e := by
  have hcast : ∀ n : ℤ, (wholePower 2 n : ℚ) = 2 ^ n.toNat := fun n => by
    unfold wholePower
    exact Nat.cast_pow 2 n.toNat
  rw [hcast, hcast]
  -- the exponent is a whole number or the negative of one
  rcases Int.le_total 0 e with h | h
  · obtain ⟨n, rfl⟩ := Int.eq_ofNat_of_zero_le h
    rw [Int.toNat_of_nonpos (by omega : -(n : ℤ) ≤ 0), Int.toNat_natCast]
    simp
  · obtain ⟨n, hn⟩ := Int.eq_ofNat_of_zero_le (by omega : 0 ≤ -e)
    obtain rfl : e = -(n : ℤ) := by omega
    rw [Int.toNat_of_nonpos h, neg_neg, Int.toNat_natCast]
    simp

/-- **The fraction is cut off in the direction of zero.** -/
theorem truncate_eq (x : Binary64) : x.truncate = towardZero x.value := by
  -- the number is a fraction of two whole powers, whose floor is their quotient
  have hvalue : (x.significand : ℚ) * 2 ^ x.scale =
      (x.significand * wholePower 2 x.scale : ℕ) / (wholePower 2 (-x.scale) : ℕ) := by
    rw [← wholePower_div, Nat.cast_mul, mul_div_assoc]
  have hfloor : ⌊(x.significand : ℚ) * 2 ^ x.scale⌋ =
      ((x.significand * wholePower 2 x.scale / wholePower 2 (-x.scale) : ℕ) : ℤ) := by
    rw [hvalue, Rat.floor_natCast_div_natCast]
    rfl
  have hnonneg : (0 : ℚ) ≤ (x.significand : ℚ) * 2 ^ x.scale := magnitudeValue_nonneg x.magnitude
  unfold truncate towardZero value
  cases x.negative with
  | false =>
    simp only [Bool.false_eq_true, if_false, if_pos hnonneg]
    exact hfloor.symm
  | true =>
    simp only [if_true]
    -- a negative zero has no fraction; any other negative number is rounded up
    by_cases hzero : (x.significand : ℚ) * 2 ^ x.scale = 0
    · rw [hzero] at hfloor ⊢
      rw [Int.floor_zero] at hfloor
      rw [← hfloor]
      simp
    · rw [if_neg (by linarith [lt_of_le_of_ne hnonneg (Ne.symm hzero)]), Int.ceil_neg, hfloor]

end Binary64

/-- The value of a number of a document. -/
def Number.value : Number → ℚ
  | .int n => n
  | .real x => x.value

/-- One finite number lies above another exactly if its value is the greater one. -/
theorem Quantity.above_finite (x y : Binary64) :
    (Quantity.finite x).above (.finite y) = true ↔ y.value < x.value := by
  rw [← not_le, Binary64.value_le_value_iff, not_le]
  exact decide_eq_true_iff

end SearchIndex
