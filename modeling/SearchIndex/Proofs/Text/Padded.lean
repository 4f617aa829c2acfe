import SearchIndex.Calendar
import SearchIndex.Text.Numeral

/-!
# Reading padded numbers

Times and offsets are written with zeros in front of their numbers, so that a reader need not
know where a number ends: it takes as many digits as there must be. The readers here take a
number, a mark, a sign or a time off the start of a text and hand on what follows, and each
undoes what the writer has put there (`Text.fixedNumber?_padded`, `Text.openNumber?_padded`,
`Text.sign?_signOf`, `Text.readClock?_clock`).
-/

namespace SearchIndex.Text

/-- The number that the first characters write, a fixed count of them, all of which must be
digits. -/
def fixedNumber? (width : Nat) (cs : List Char) : Option (Nat × List Char) :=
  let digits := cs.take width
  if digits.length = width ∧ digits.all Char.isDigit then
    some (decimalValue digits, cs.drop width)
  else none

/-- The number that all digits at the start of a text write, of which there must be some least
count. -/
def openNumber? (least : Nat) (cs : List Char) : Option (Nat × List Char) :=
  let digits := cs.takeWhile Char.isDigit
  if least ≤ digits.length then some (decimalValue digits, cs.drop digits.length) else none

/-- What follows a mark. -/
def mark? (mark : Char) : List Char → Option (List Char)
  | [] => none
  | c :: rest => if c = mark then some rest else none

/-- The factor that a sign stands for. -/
def sign? : List Char → Option (Int × List Char)
  | '+' :: rest => some (1, rest)
  | '-' :: rest => some (-1, rest)
  | _ => none

@[simp] theorem mark?_cons (mark : Char) (rest : List Char) :
    mark? mark (mark :: rest) = some rest := if_pos rfl

/-! ### Signs -/

/-- The sign of a number, which always has one. -/
def signOf (n : Int) : Char := if n < 0 then '-' else '+'

/-- The factor that the sign of a number stands for. -/
def signFactor (n : Int) : Int := if n < 0 then -1 else 1

@[simp] theorem sign?_signOf (n : Int) (rest : List Char) :
    sign? (signOf n :: rest) = some (signFactor n, rest) := by
  unfold signOf signFactor
  split <;> rfl

theorem signFactor_mul_natAbs (n : Int) : signFactor n * n.natAbs = n := by
  unfold signFactor
  split <;> omega

theorem signOf_eq_signOf_iff {m n : Int} : signOf m = signOf n ↔ (m < 0 ↔ n < 0) := by
  unfold signOf
  by_cases hm : m < 0 <;> by_cases hn : n < 0 <;> simp [hm, hn]

theorem signOf_eq_minus_iff {n : Int} : signOf n = '-' ↔ n < 0 := by
  unfold signOf
  by_cases hn : n < 0 <;> simp [hn]

/-! ### Padded numbers -/

/-- Digits are read as the library reads them. -/
theorem decimalValue_eq_ofDigitChars (cs : List Char) :
    decimalValue cs = Nat.ofDigitChars 10 cs 0 := by
  unfold decimalValue
  rw [Nat.ofDigitChars_eq_foldl]
  congr 1
  funext n c
  rw [Nat.mul_comm]
  rfl

theorem toList_padded (width n : Nat) : (padded width n).toList =
    List.replicate (width - (Nat.toDigits 10 n).length) '0' ++ Nat.toDigits 10 n :=
  String.toList_ofList

/-- Zeros in front do not count. -/
theorem decimalValue_padded (width n : Nat) : decimalValue (padded width n).toList = n := by
  calc decimalValue (padded width n).toList
      = Nat.ofDigitChars 10
          (List.replicate (width - (Nat.toDigits 10 n).length) '0' ++ Nat.toDigits 10 n) 0 := by
        rw [decimalValue_eq_ofDigitChars, toList_padded]
    _ = Nat.ofDigitChars 10 (Nat.toDigits 10 n) 0 := by
        rw [Nat.ofDigitChars_append, Nat.ofDigitChars_replicate_zero, Nat.mul_zero]
    _ = n := Nat.ofDigitChars_ten_toDigits

theorem all_isDigit_padded (width n : Nat) : (padded width n).toList.all Char.isDigit = true := by
  rw [toList_padded, List.all_eq_true]
  intro c hc
  -- a zero in front, or a digit of the number
  rcases List.mem_append.mp hc with hc | hc
  · rw [List.eq_of_mem_replicate hc]
    rfl
  · exact Nat.isDigit_of_mem_toDigits (by decide) (by decide) hc

theorem le_length_padded (width n : Nat) : width ≤ (padded width n).toList.length := by
  rw [toList_padded, List.length_append, List.length_replicate]
  omega

/-- A number that fits is written with as many digits as there must be. -/
theorem length_padded {width n : Nat} (hwidth : 0 < width) (h : n < Nat.pow 10 width) :
    (padded width n).toList.length = width := by
  -- the digits of the number itself are no more than that
  have hdigits := (Nat.length_toDigits_le_iff (by decide) hwidth).mpr h
  rw [toList_padded, List.length_append, List.length_replicate]
  omega

/-- **A number of a fixed width is read as it was written**, whatever follows. -/
theorem fixedNumber?_padded {width n : Nat} (hwidth : 0 < width) (h : n < Nat.pow 10 width)
    (rest : List Char) :
    fixedNumber? width ((padded width n).toList ++ rest) = some (n, rest) := by
  have hlength := length_padded hwidth h
  -- the digits are the first characters, and all that follows is left
  have htake : ((padded width n).toList ++ rest).take width = (padded width n).toList :=
    List.take_left' hlength
  have hdrop : ((padded width n).toList ++ rest).drop width = rest := List.drop_left' hlength
  unfold fixedNumber?
  dsimp only
  rw [htake, hdrop, decimalValue_padded]
  exact if_pos ⟨hlength, all_isDigit_padded width n⟩

/-- **A number of an open width is read as it was written** if no digit follows. -/
theorem openNumber?_padded (width n : Nat) {c : Char} (hc : c.isDigit = false)
    (rest : List Char) :
    openNumber? width ((padded width n).toList ++ c :: rest) = some (n, c :: rest) := by
  -- the digits end where the other character comes
  have htake : ((padded width n).toList ++ c :: rest).takeWhile Char.isDigit =
      (padded width n).toList := by
    rw [List.takeWhile_append_of_pos (List.all_eq_true.mp (all_isDigit_padded width n)),
      List.takeWhile_cons_of_neg (by rw [hc]; exact Bool.false_ne_true), List.append_nil]
  unfold openNumber?
  dsimp only
  rw [htake, List.drop_left, decimalValue_padded]
  exact if_pos (le_length_padded width n)

/-- A number begins with a digit, and so with no sign. -/
theorem sign?_padded {width : Nat} (hwidth : 0 < width) (n : Nat) (rest : List Char) :
    sign? ((padded width n).toList ++ rest) = none := by
  have hlength := le_length_padded width n
  have hdigits := all_isDigit_padded width n
  cases hlist : (padded width n).toList with
  | nil =>
    rw [hlist] at hlength
    exact absurd hwidth (Nat.not_lt.mpr hlength)
  | cons c cs =>
    rw [hlist, List.all_cons, Bool.and_eq_true] at hdigits
    -- a digit is neither of the two signs
    have hplus : c ≠ '+' := fun h => absurd hdigits.1 (h ▸ by decide)
    have hminus : c ≠ '-' := fun h => absurd hdigits.1 (h ▸ by decide)
    unfold sign?
    split
    · rename_i heq
      exact absurd (List.cons.inj heq).1 hplus
    · rename_i heq
      exact absurd (List.cons.inj heq).1 hminus
    · rfl

/-! ### Hours and minutes -/

/-- A number of minutes, written as hours and minutes. -/
def clock (minutes : Nat) : List Char :=
  (padded 2 (minutes / 60)).toList ++ ':' :: (padded 2 (minutes % 60)).toList

/-- The number of minutes that two digits for the hours and two for the minutes write; a day has
24 hours and an hour 60 minutes. -/
def readClock? (cs : List Char) : Option (Nat × List Char) := do
  let (hours, rest) ← fixedNumber? 2 cs
  let rest ← mark? ':' rest
  let (minutes, rest) ← fixedNumber? 2 rest
  if hours < 24 ∧ minutes < 60 then some (hours * 60 + minutes, rest) else none

/-- **Hours and minutes are read as they were written**, whatever follows. -/
theorem readClock?_clock {minutes : Nat} (h : minutes < 1440) (rest : List Char) :
    readClock? (clock minutes ++ rest) = some (minutes, rest) := by
  have hhours : minutes / 60 < 24 := by omega
  have hminutes : minutes % 60 < 60 := Nat.mod_lt _ (by decide)
  have htwo : ∀ n, n < 60 → n < Nat.pow 10 2 := fun n hn => Nat.lt_trans hn (by decide)
  unfold readClock? clock
  rw [List.append_assoc, List.cons_append,
    fixedNumber?_padded (by decide) (htwo _ (Nat.lt_trans hhours (by decide)))]
  simp only [Option.bind_eq_bind, Option.bind_some, mark?_cons]
  rw [fixedNumber?_padded (by decide) (htwo _ hminutes)]
  simp only [Option.bind_some]
  rw [if_pos ⟨hhours, hminutes⟩, Nat.div_add_mod']

end SearchIndex.Text
