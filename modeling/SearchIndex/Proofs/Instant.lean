import SearchIndex.Proofs.Calendar
import SearchIndex.Proofs.Text.Padded

/-!
# Reading timestamps

`Instant.text` writes an instant as a timestamp: a date, the time of the day with milliseconds,
and a mark for universal time. `Instant.read?` takes a timestamp apart again, checks that the date
exists and that the time does, and counts milliseconds from the first of 1970 by the calendar
alone (`Date.dayNumber`). `Instant.read?_text` says that this gives the instant back, whatever its
year is, so that no two instants have one timestamp.

Each part of the text has a reader of its own that hands on what follows, and a lemma which says
that the reader undoes the writer.
-/

namespace SearchIndex.Instant

/-! ### Readers -/

/-- A year of four digits, or one of at least four behind a sign. -/
def readYear? (cs : List Char) : Option (Int × List Char) :=
  match Text.sign? cs with
  | some (sign, digits) =>
    (Text.openNumber? 4 digits).map (fun (year, rest) => (sign * year, rest))
  | none => (Text.fixedNumber? 4 cs).map (fun (year, rest) => ((year : Int), rest))

/-- A date that exists. -/
def readDate? (cs : List Char) : Option (Date × List Char) := do
  let (year, rest) ← readYear? cs
  let rest ← Text.mark? '-' rest
  let (month, rest) ← Text.fixedNumber? 2 rest
  let rest ← Text.mark? '-' rest
  let (day, rest) ← Text.fixedNumber? 2 rest
  if Date.Valid ⟨year, month, day⟩ then some (⟨year, month, day⟩, rest) else none

/-- The milliseconds of a day that a time writes. -/
def readTime? (cs : List Char) : Option (Nat × List Char) := do
  let (minutes, rest) ← Text.readClock? cs
  let rest ← Text.mark? ':' rest
  let (seconds, rest) ← Text.fixedNumber? 2 rest
  let rest ← Text.mark? '.' rest
  let (millis, rest) ← Text.fixedNumber? 3 rest
  if seconds < 60 then some (minutes * 60000 + seconds * 1000 + millis, rest) else none

/-- The instant that a timestamp of universal time stands for, in milliseconds since the first of
1970 began. -/
def read? (text : String) : Option Int := do
  let (date, rest) ← readDate? text.toList
  let rest ← Text.mark? 'T' rest
  let (millis, rest) ← readTime? rest
  let rest ← Text.mark? 'Z' rest
  if rest = [] then some (date.dayNumber * 86400000 + millis) else none

/-! ### The parts of a timestamp -/

/-- A date, as it is written. -/
def dateText (d : Date) : List Char :=
  (yearText d.year).toList ++
    '-' :: ((padded 2 d.month).toList ++ '-' :: (padded 2 d.day).toList)

/-- A time of the day, as it is written. -/
def timeText (millis : Nat) : List Char :=
  Text.clock (millis / 60000) ++
    ':' :: ((padded 2 (millis / 1000 % 60)).toList ++ '.' :: (padded 3 (millis % 1000)).toList)

theorem toList_text (millis : Int) :
    (text millis).toList = dateText (Date.ofDays (millis.fdiv 86400000)) ++
      'T' :: (timeText (millis.fmod 86400000).toNat ++ ['Z']) := by
  -- the writer takes the hours straight from the milliseconds
  have hhours (n : Nat) : n / 60000 / 60 = n / 3600000 := Nat.div_div_eq_div_mul ..
  unfold text dateText timeText Text.clock
  dsimp only
  rw [hhours]
  simp [String.toList_append]

/-! ### Reading what was written -/

/-- **A year is read as it was written**, if no digit follows. -/
theorem readYear?_yearText (year : Int) {c : Char} (hc : c.isDigit = false) (rest : List Char) :
    readYear? ((yearText year).toList ++ c :: rest) = some (year, c :: rest) := by
  unfold readYear? yearText
  by_cases hplain : 0 ≤ year ∧ year ≤ 9999
  · -- without a sign in front, exactly four digits are taken
    have hfits : year.toNat < Nat.pow 10 4 := by
      show _ < 10000
      omega
    rw [if_pos hplain, Text.sign?_padded (by decide), Text.fixedNumber?_padded (by decide) hfits]
    show some ((year.toNat : Int), c :: rest) = _
    rw [Int.toNat_of_nonneg hplain.1]
  · -- any other year has a sign, and its digits end where the mark follows
    have htext : ((if year < 0 then "-" else "+") ++ padded 4 year.natAbs).toList =
        Text.signOf year :: (padded 4 year.natAbs).toList := by
      rw [String.toList_append]
      unfold Text.signOf
      split <;> rfl
    rw [if_neg hplain, htext, List.cons_append, Text.sign?_signOf]
    show Option.map _ (Text.openNumber? 4 _) = _
    rw [Text.openNumber?_padded 4 _ hc]
    show some (Text.signFactor year * (year.natAbs : Int), c :: rest) = _
    rw [Text.signFactor_mul_natAbs]

/-- **A date that exists is read as it was written.** -/
theorem readDate?_dateText {d : Date} (h : d.Valid) (rest : List Char) :
    readDate? (dateText d ++ rest) = some (d, rest) := by
  -- the month and the day have two digits, as the date is valid
  obtain ⟨hmonth, hday⟩ := h.lt_hundred
  unfold readDate? dateText
  simp only [List.append_assoc, List.cons_append, Option.bind_eq_bind]
  rw [readYear?_yearText d.year (by decide)]
  simp only [Option.bind_some, Text.mark?_cons]
  rw [Text.fixedNumber?_padded (by decide) hmonth]
  simp only [Option.bind_some, Text.mark?_cons]
  rw [Text.fixedNumber?_padded (by decide) hday]
  exact if_pos h

/-- **A time of the day is read as it was written.** -/
theorem readTime?_timeText {millis : Nat} (h : millis < 86400000) (rest : List Char) :
    readTime? (timeText millis ++ rest) = some (millis, rest) := by
  have hminutes : millis / 60000 < 1440 := by omega
  have hseconds : millis / 1000 % 60 < 60 := Nat.mod_lt _ (by decide)
  have hmillis : millis % 1000 < Nat.pow 10 3 := Nat.mod_lt _ (by decide)
  -- minutes, seconds and milliseconds make up the time again
  have hsum : millis / 60000 * 60000 + millis / 1000 % 60 * 1000 + millis % 1000 = millis := by
    omega
  unfold readTime? timeText
  simp only [List.append_assoc, List.cons_append, Option.bind_eq_bind]
  rw [Text.readClock?_clock hminutes]
  simp only [Option.bind_some, Text.mark?_cons]
  rw [Text.fixedNumber?_padded (by decide) (Nat.lt_trans hseconds (by decide))]
  simp only [Option.bind_some, Text.mark?_cons]
  rw [Text.fixedNumber?_padded (by decide) hmillis]
  simp only [Option.bind_some]
  rw [if_pos hseconds, hsum]

/-- **A timestamp is read as the instant that it was written for.** -/
theorem read?_text (millis : Int) : read? (text millis) = some millis := by
  -- the day and the milliseconds of the day, also before 1970
  have hsplit := Int.mul_fdiv_add_fmod millis 86400000
  have hnonneg := Int.fmod_nonneg_of_pos millis (by decide : (0 : Int) < 86400000)
  have hlt := Int.fmod_lt_of_pos millis (by decide : (0 : Int) < 86400000)
  have hday : (millis.fmod 86400000).toNat < 86400000 := by omega
  have hsum : millis.fdiv 86400000 * 86400000 + ((millis.fmod 86400000).toNat : Int) = millis := by
    omega
  obtain ⟨hvalid, hnumber⟩ := Date.ofDays_spec (millis.fdiv 86400000)
  unfold read?
  rw [toList_text, readDate?_dateText hvalid]
  simp only [Option.bind_eq_bind, Option.bind_some, Text.mark?_cons]
  rw [readTime?_timeText hday]
  simp only [Option.bind_some, Text.mark?_cons]
  rw [if_pos trivial, hnumber, hsum]

/-- No two instants have one timestamp. -/
theorem text_injective {m n : Int} (h : text m = text n) : m = n := by
  have hread : some m = some n := by
    rw [← read?_text m, ← read?_text n, h]
  exact Option.some.inj hread

end SearchIndex.Instant
