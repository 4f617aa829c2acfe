import SearchIndex.Calendar
import Mathlib.Algebra.BigOperators.Group.List.Basic
import Mathlib.Tactic.IntervalCases

/-!
# Days and dates

A date of the proleptic Gregorian calendar stands for a day, and which day that is follows from
the lengths of years and months alone: the days of all years since 1970, of the months before and
of the month itself are counted (`Date.dayNumber`). `Date.ofDays` takes another way. It lets years
begin in March and finds the year of a day with a few divisions, none of which asks whether a year
is a leap year. `Date.ofDays_spec` says that this way leads to a date that exists and that stands
for the day.

The proof has two halves. A day of a year that begins in March is a day of a month, because the
lengths of the months come from rounding (`Date.ofMarchDay_spec`). And a day of an era of 400 years
is taken apart into centuries, cycles of four years, years and days (`Date.PartsOfEra`), of which
the divisions find the year (`Date.PartsOfEra.yearOfEra_eq`).
-/

namespace SearchIndex

/-! ### Lengths of years and months -/

/-- Every fourth year is a leap year, but a full century only if it is the fourth. -/
def IsLeapYear (year : Int) : Prop := 4 ∣ year ∧ (100 ∣ year → 400 ∣ year)

instance (year : Int) : Decidable (IsLeapYear year) :=
  inferInstanceAs (Decidable (4 ∣ year ∧ (100 ∣ year → 400 ∣ year)))

/-- The number of days of a year. -/
def yearLength (year : Int) : Int := if IsLeapYear year then 366 else 365

/-- The number of days of a month, counted from 1. -/
def monthLength (year : Int) (month : Nat) : Nat :=
  if month = 2 then if IsLeapYear year then 29 else 28
  else if month = 4 ∨ month = 6 ∨ month = 9 ∨ month = 11 then 30
  else 31

/-- The days from the beginning of 1970 to that of a year. Those of earlier years count
backwards. -/
def daysBeforeYear (year : Int) : Int :=
  ((List.range (year - 1970).toNat).map (fun n => yearLength (1970 + (n : Nat)))).sum -
    ((List.range (1970 - year).toNat).map (fun n => yearLength (1969 - (n : Nat)))).sum

/-- The days of a year before a month. -/
def daysBeforeMonth (year : Int) (month : Nat) : Nat :=
  ((List.range (month - 1)).map (fun before => monthLength year (before + 1))).sum

theorem daysBeforeYear_epoch : daysBeforeYear 1970 = 0 := rfl

/-- The next year begins as many days later as the year has. -/
theorem daysBeforeYear_succ (year : Int) :
    daysBeforeYear (year + 1) = daysBeforeYear year + yearLength year := by
  unfold daysBeforeYear
  rcases Int.lt_or_le year 1970 with hbefore | hsince
  · -- one year less is counted backwards
    have hnone : (year - 1970).toNat = 0 ∧ (year + 1 - 1970).toNat = 0 := by omega
    have hless : (1970 - year).toNat = (1970 - (year + 1)).toNat + 1 := by omega
    have hyear : 1969 - (((1970 - (year + 1)).toNat : Nat) : Int) = year := by omega
    rw [hnone.1, hnone.2, hless, List.sum_range_succ, hyear]
    omega
  · -- one year more is counted forwards
    have hnone : (1970 - year).toNat = 0 ∧ (1970 - (year + 1)).toNat = 0 := by omega
    have hmore : (year + 1 - 1970).toNat = (year - 1970).toNat + 1 := by omega
    have hyear : 1970 + (((year - 1970).toNat : Nat) : Int) = year := by omega
    rw [hnone.1, hnone.2, hmore, List.sum_range_succ, hyear]
    omega

/-- The leap years from the year 1 to a year: those among every fourth year that are left when
full centuries are taken out and every fourth century is put back. -/
def leapYearsBefore (year : Int) : Int := (year - 1) / 4 - (year - 1) / 100 + (year - 1) / 400

/-- The next year has one more leap year before it if this year is one. -/
theorem leapYearsBefore_succ (year : Int) :
    365 + leapYearsBefore (year + 1) = leapYearsBefore year + yearLength year := by
  unfold leapYearsBefore yearLength
  -- the count of every fourth year, century and fourth century goes up in turn
  by_cases hleap : IsLeapYear year
  · rw [if_pos hleap]
    unfold IsLeapYear at hleap
    omega
  · rw [if_neg hleap]
    unfold IsLeapYear at hleap
    omega

/-- **The days before a year need not be counted one year after the other.** -/
theorem daysBeforeYear_eq (year : Int) :
    daysBeforeYear year = 365 * (year - 1970) + (leapYearsBefore year - 477) := by
  -- from 1970 on in both directions, both sides change by the length of a year
  induction year using Int.inductionOn' (b := 1970) with
  | zero => exact daysBeforeYear_epoch
  | succ year _ ih =>
    have hleap := leapYearsBefore_succ year
    rw [daysBeforeYear_succ, ih]
    omega
  | pred year _ ih =>
    have hleap := leapYearsBefore_succ (year - 1)
    have hnext := daysBeforeYear_succ (year - 1)
    rw [Int.sub_add_cancel] at hleap hnext
    omega

/-- The next month begins as many days later as the month has. -/
theorem daysBeforeMonth_succ (year : Int) (before : Nat) :
    daysBeforeMonth year (before + 2) =
      daysBeforeMonth year (before + 1) + monthLength year (before + 1) := by
  unfold daysBeforeMonth
  exact List.sum_range_succ (fun n => monthLength year (n + 1)) before

/-- The months but February have 337 days together. -/
theorem yearLength_eq (year : Int) : yearLength year = 337 + monthLength year 2 := by
  unfold yearLength monthLength
  by_cases hleap : IsLeapYear year <;> simp [hleap]

theorem monthLength_february_le (year : Int) : 28 ≤ monthLength year 2 := by
  unfold monthLength
  by_cases hleap : IsLeapYear year <;> simp [hleap]

/-- No month has more than 31 days. -/
theorem monthLength_le (year : Int) (month : Nat) : monthLength year month ≤ 31 := by
  unfold monthLength
  split
  · split <;> decide
  · split <;> decide

theorem monthLength_february_of_leap {year : Int} (h : IsLeapYear year) :
    monthLength year 2 = 29 := if_pos h

namespace Date

/-- The date exists. -/
def Valid (d : Date) : Prop :=
  (1 ≤ d.month ∧ d.month ≤ 12) ∧ 1 ≤ d.day ∧ d.day ≤ monthLength d.year d.month

instance (d : Date) : Decidable d.Valid :=
  inferInstanceAs (Decidable ((1 ≤ d.month ∧ d.month ≤ 12) ∧ 1 ≤ d.day ∧
    d.day ≤ monthLength d.year d.month))

/-- The day that a date stands for, counted from the first of 1970. -/
def dayNumber (d : Date) : Int :=
  daysBeforeYear d.year + daysBeforeMonth d.year d.month + (d.day - 1)

/-- The numbers of a date that exists have two digits at most. -/
theorem Valid.lt_hundred {d : Date} (h : d.Valid) : d.month < 100 ∧ d.day < 100 := by
  obtain ⟨⟨-, hmonth⟩, -, hday⟩ := h
  have hlength := monthLength_le d.year d.month
  omega

/-! ### Years that begin in March -/

/-- The date of a day of a year that begins in March and bears the number of the year in which it
begins. -/
def ofMarchDay (year : Int) (day : Nat) : Date :=
  let monthFromMarch := (5 * day + 2) / 153
  let month := if monthFromMarch < 10 then monthFromMarch + 3 else monthFromMarch - 9
  { year := year + (if month ≤ 2 then 1 else 0)
    month := month
    day := day - (153 * monthFromMarch + 2) / 5 + 1 }

/-- The months from March to December have lengths that come from rounding. -/
theorem monthLength_fromMarch (year : Int) {k : Nat} (hk : k < 10) :
    monthLength year (k + 3) = (153 * (k + 1) + 2) / 5 - (153 * k + 2) / 5 := by
  interval_cases k <;> rfl

/-- The months from March on begin where rounding puts them. -/
theorem daysBeforeMonth_fromMarch (year : Int) {k : Nat} (hk : k < 10) :
    daysBeforeMonth year (k + 3) = 31 + monthLength year 2 + (153 * k + 2) / 5 := by
  induction k with
  | zero =>
    -- January and February come before March
    rw [daysBeforeMonth_succ, daysBeforeMonth_succ]
    rfl
  | succ k ih =>
    have hlength := monthLength_fromMarch year (Nat.lt_of_succ_lt hk)
    -- the next month begins after the length of this one
    rw [daysBeforeMonth_succ year (k + 2), ih (Nat.lt_of_succ_lt hk), hlength]
    omega

/-- In the first ten months the date is of the year in which the count begins. -/
theorem ofMarchDay_fromMarch (year : Int) {day k : Nat} (h : (5 * day + 2) / 153 = k)
    (hk : k < 10) :
    ofMarchDay year day = ⟨year, k + 3, day - (153 * k + 2) / 5 + 1⟩ := by
  have hmonth : ¬ k + 3 ≤ 2 := by omega
  unfold ofMarchDay
  dsimp only
  rw [h, if_pos hk, if_neg hmonth, Int.add_zero]

/-- In the last two months the date is of the next year. -/
theorem ofMarchDay_nextYear (year : Int) {day k : Nat} (h : (5 * day + 2) / 153 = k + 10)
    (hk : k < 2) :
    ofMarchDay year day = ⟨year + 1, k + 1, day - (306 + 31 * k) + 1⟩ := by
  -- the month has a number beyond December and is counted from January again
  have hmonth : ¬ k + 10 < 10 := by omega
  have hsub : k + 10 - 9 = k + 1 := by omega
  have hfirst : k + 1 ≤ 2 := by omega
  have hdays : (153 * (k + 10) + 2) / 5 = 306 + 31 * k := by omega
  unfold ofMarchDay
  dsimp only
  rw [h, if_neg hmonth, hsub, if_pos hfirst, hdays]

/-- The last days of such a year end the January and the February of the next one. -/
theorem lt_endOfMonth {year : Int} {day k : Nat} (h : (5 * day + 2) / 153 = k + 10)
    (hday : day < 365 ∨ day = 365 ∧ IsLeapYear year) :
    day < 306 + 31 * k + monthLength year (k + 1) := by
  have hk : k < 2 := by omega
  interval_cases k
  · have hjanuary : monthLength year (0 + 1) = 31 := rfl
    omega
  · -- February has as many days as the year allows
    show day < 306 + 31 * 1 + monthLength year 2
    rcases hday with hday | ⟨rfl, hleap⟩
    · have hlength := monthLength_february_le year
      omega
    · rw [monthLength_february_of_leap hleap]
      decide

/-- **A day of a year that begins in March has a date**, and this stands for the day. The last day
is there only if the year ends in a leap year. -/
theorem ofMarchDay_spec (year : Int) {day : Nat}
    (hday : day < 365 ∨ day = 365 ∧ IsLeapYear (year + 1)) :
    (ofMarchDay year day).Valid ∧
      (ofMarchDay year day).dayNumber = daysBeforeYear (year + 1) - 306 + day := by
  have hfebruary := yearLength_eq year
  have hnext := daysBeforeYear_succ year
  unfold Valid dayNumber
  rcases Nat.lt_or_ge ((5 * day + 2) / 153) 10 with hmonth | hmonth
  · -- the months from March on, in which rounding gives the first day
    generalize hk : (5 * day + 2) / 153 = k at hmonth
    have hlength := monthLength_fromMarch year hmonth
    have hbefore := daysBeforeMonth_fromMarch year hmonth
    rw [ofMarchDay_fromMarch year hk hmonth]
    dsimp only
    rw [hlength, hbefore]
    omega
  · -- January and February belong to the next year
    obtain ⟨k, hk⟩ : ∃ k, (5 * day + 2) / 153 = k + 10 := ⟨_, (Nat.sub_add_cancel hmonth).symm⟩
    have htwo : k < 2 := by omega
    have hfits := lt_endOfMonth hk hday
    -- only January can lie before, with its 31 days
    have hbefore : daysBeforeMonth (year + 1) (k + 1) = 31 * k := by
      interval_cases k <;> rfl
    rw [ofMarchDay_nextYear year hk htwo]
    dsimp only
    rw [hbefore]
    omega

/-! ### Days of an era -/

/-- A day of an era, taken apart into centuries, cycles of four years, years and days. A year has
one more day if it is the last of its cycle, unless the cycle is the last of a century that is not
the last one. -/
structure PartsOfEra (day century cycle year rest : Nat) : Prop where
  century_lt : century < 4
  cycle_lt : cycle < 25
  year_lt : year < 4
  rest_lt : rest < 365 ∨ rest = 365 ∧ year = 3 ∧ (cycle = 24 → century = 3)
  day_eq : day = 36524 * century + 1461 * cycle + 365 * year + rest

/-- Every day of an era has parts. -/
theorem exists_partsOfEra {day : Nat} (h : day < 146097) :
    ∃ century cycle year rest, PartsOfEra day century cycle year rest := by
  -- each part is as large as it can be, but no part begins with a last day
  obtain ⟨century, hcentury⟩ : ∃ century, century = min (day / 36524) 3 := ⟨_, rfl⟩
  obtain ⟨inCentury, hinCentury⟩ : ∃ n, n = day - 36524 * century := ⟨_, rfl⟩
  obtain ⟨cycle, hcycle⟩ : ∃ cycle, cycle = inCentury / 1461 := ⟨_, rfl⟩
  obtain ⟨inCycle, hinCycle⟩ : ∃ n, n = inCentury - 1461 * cycle := ⟨_, rfl⟩
  obtain ⟨year, hyear⟩ : ∃ year, year = min (inCycle / 365) 3 := ⟨_, rfl⟩
  refine ⟨century, cycle, year, inCycle - 365 * year, ?_, ?_, ?_, ?_, ?_⟩
  -- what is left of each part is less than the length of the next
  all_goals omega

/-- The year of an era that the divisions find. -/
def yearOfEra (day : Nat) : Nat := (day - day / 1460 + day / 36524 - day / 146096) / 365

namespace PartsOfEra

variable {day century cycle year rest : Nat}

/-- A century has 36524 days, and the last one has one more. -/
theorem inCentury_lt (h : PartsOfEra day century cycle year rest) :
    1461 * cycle + 365 * year + rest < 36524 ∨
      1461 * cycle + 365 * year + rest = 36524 ∧ century = 3 ∧ rest = 365 := by
  -- only the last day of the last cycle can lie behind, and it is there in the last century only
  obtain ⟨hcentury, hcycle, hyear, hrest, -⟩ := h
  omega

/-- Only the last day of an era comes out with the next century. -/
theorem div_century (h : PartsOfEra day century cycle year rest) :
    day / 36524 = century + day / 146096 := by
  -- the days that are left do not make another century, unless it is the last day of all
  have hcentury := h.century_lt
  have hday : day = 36524 * century + (1461 * cycle + 365 * year + rest) := by
    rw [h.day_eq]
    omega
  rcases h.inCentury_lt with hlt | ⟨heq, rfl, -⟩
  · have hlast : day / 146096 = 0 := Nat.div_eq_of_lt (by omega)
    rw [hlast, hday, Nat.mul_add_div (by decide), Nat.div_eq_of_lt hlt]
  · rw [heq] at hday
    rw [hday]

/-- Of 1460 days there are as many as of cycles, and one more if the last year is all but over. -/
theorem div_cycle (h : PartsOfEra day century cycle year rest) :
    ∃ surplus, day / 1460 = 25 * century + cycle + surplus ∧
      surplus ≤ rest ∧ rest < 365 + surplus := by
  obtain ⟨hcentury, hcycle, hyear, hrest, hday⟩ := h
  -- each century before has pushed the day on by 24, and each cycle by one
  have hsplit : day = 1460 * (25 * century + cycle) +
      (24 * century + cycle + 365 * year + rest) := by omega
  refine ⟨(24 * century + cycle + 365 * year + rest) / 1460, ?_, ?_⟩
  · -- the days beyond the full cycles are divided apart
    rw [hsplit, Nat.mul_add_div (by decide)]
  · -- what is over is one at most, and then the year is nearly full
    omega

/-- **The divisions find the year.** They take off the days that cycles of four years have over
1460 and put back those that centuries lack, so that all years come out with 365 days. -/
theorem yearOfEra_eq (h : PartsOfEra day century cycle year rest) :
    yearOfEra day = 100 * century + 4 * cycle + year := by
  obtain ⟨surplus, hcycles, hle, hlt⟩ := h.div_cycle
  -- the three corrections leave 365 days for each year, and the days of the last
  have hdays : day - day / 1460 + day / 36524 - day / 146096 =
      365 * (100 * century + 4 * cycle + year) + (rest - surplus) := by
    rw [h.div_century, hcycles, h.day_eq]
    omega
  calc yearOfEra day
      = (365 * (100 * century + 4 * cycle + year) + (rest - surplus)) / 365 :=
        congrArg (fun days => days / 365) hdays
    _ = 100 * century + 4 * cycle + year + (rest - surplus) / 365 :=
        Nat.mul_add_div (by decide) ..
    _ = 100 * century + 4 * cycle + year := by
        rw [Nat.div_eq_of_lt (by omega), Nat.add_zero]

/-- The year that is found is one of the 400 of an era. -/
theorem yearOfEra_lt (h : PartsOfEra day century cycle year rest) : yearOfEra day < 400 := by
  have hcentury := h.century_lt
  have hcycle := h.cycle_lt
  have hyear := h.year_lt
  rw [h.yearOfEra_eq]
  omega

/-- The days of the years before, and those of the year. -/
theorem daysOfEra_eq (h : PartsOfEra day century cycle year rest) :
    day = 365 * yearOfEra day + yearOfEra day / 4 - yearOfEra day / 100 + rest := by
  have hcycle := h.cycle_lt
  have hyear := h.year_lt
  -- the cycles and the centuries are read off the year that has been found
  have hfourth : (100 * century + 4 * cycle + year) / 4 = 25 * century + cycle := by omega
  have hcentury : (100 * century + 4 * cycle + year) / 100 = century := by omega
  rw [h.yearOfEra_eq, hfourth, hcentury, h.day_eq]
  omega

/-- A year that has one more day ends in a leap year. -/
theorem lastDay (h : PartsOfEra day century cycle year rest) (era : Int) :
    rest < 365 ∨
      rest = 365 ∧ IsLeapYear (era * 400 + yearOfEra day + 1) := by
  refine h.rest_lt.imp_right fun ⟨hrest, hyear, hcycle⟩ => ⟨hrest, ?_⟩
  have hcentury := h.century_lt
  have hle := h.cycle_lt
  -- the year is the last of its cycle, and the cycle is not the last of a century but the fourth
  rw [h.yearOfEra_eq]
  unfold IsLeapYear
  omega

end PartsOfEra

/-- The years of an era, of which the first begins in March of the year 0. -/
theorem daysBeforeYear_era (era : Int) {year : Nat} (h : year < 400) :
    daysBeforeYear (era * 400 + year + 1) =
      146097 * era + (365 * year + year / 4 - year / 100 : Nat) - 719162 := by
  rw [daysBeforeYear_eq]
  unfold leapYearsBefore
  omega

/-- The date of a day, by era and day of the era. -/
theorem ofDays_eq (days : Int) :
    let era := (days + 719468).fdiv 146097
    let day := ((days + 719468).fmod 146097).toNat
    ofDays days = ofMarchDay (era * 400 + yearOfEra day)
      (day - (365 * yearOfEra day + yearOfEra day / 4 - yearOfEra day / 100)) := rfl

/-- **The date of a day exists and stands for the day.** -/
theorem ofDays_spec (days : Int) : (ofDays days).Valid ∧ (ofDays days).dayNumber = days := by
  -- the era and the day in it, which its parts then stand for
  have hera := Int.mul_fdiv_add_fmod (days + 719468) 146097
  have hnonneg := Int.fmod_nonneg_of_pos (days + 719468) (by decide : (0 : Int) < 146097)
  have hlt := Int.fmod_lt_of_pos (days + 719468) (by decide : (0 : Int) < 146097)
  rw [ofDays_eq]
  generalize (days + 719468).fdiv 146097 = era at hera
  generalize (days + 719468).fmod 146097 = inEra at hera hnonneg hlt
  obtain ⟨day, rfl⟩ := Int.eq_ofNat_of_zero_le hnonneg
  obtain ⟨century, cycle, year, rest, h⟩ := exists_partsOfEra (Int.ofNat_lt.mp hlt)
  have hdays := h.daysOfEra_eq
  -- what is left after the years of the era is the day of the year
  have hrest : day - (365 * yearOfEra day + yearOfEra day / 4 - yearOfEra day / 100) = rest := by
    omega
  rw [Int.toNat_natCast, hrest]
  obtain ⟨hvalid, hnumber⟩ := ofMarchDay_spec (era * 400 + yearOfEra day) (h.lastDay era)
  refine ⟨hvalid, ?_⟩
  -- the days of the era and of those before it add up to the day
  rw [hnumber, daysBeforeYear_era era h.yearOfEra_lt]
  omega

end Date

end SearchIndex
