import SearchIndex.Aggregation.Interval

/-!
# The grammar of intervals

`Interval.isInterval` takes the digits off the front of a text and looks at what is left. Read
the other way round, an interval is written down as digits with a unit behind them, or as the
name of a calendar unit (`Interval.Written`). The two agree (`Interval.isInterval_iff`) because
no unit starts with a digit, so the digits taken off are those of the count.
-/

namespace SearchIndex.Interval

/-- The ways to write an interval. -/
inductive Written : String → Prop where
  | calendar {name : String} (h : name ∈ calendarUnits) : Written name
  | counted {count : List Char} {unit : String} (ne : count ≠ [])
      (digits : ∀ c ∈ count, Text.isDecimalDigit c = true) (h : unit ∈ units) :
      Written (String.ofList count ++ unit)

/-- A unit is not empty, and its first character is no digit. -/
theorem exists_cons_of_mem_units {unit : String} (h : unit ∈ units) :
    ∃ c rest, unit.toList = c :: rest ∧ Text.isDecimalDigit c = false := by
  -- there are few enough units to look at each
  simp only [units, List.mem_cons, List.not_mem_nil, or_false] at h
  rcases h with rfl | rfl | rfl | rfl | rfl | rfl | rfl | rfl | rfl <;>
    exact ⟨_, _, rfl, by decide⟩

/-- The digits in front of a unit are those of the count. -/
theorem takeWhile_counted {count : List Char} {unit : String}
    (digits : ∀ c ∈ count, Text.isDecimalDigit c = true) (h : unit ∈ units) :
    (count ++ unit.toList).takeWhile Text.isDecimalDigit = count ∧
      (count ++ unit.toList).dropWhile Text.isDecimalDigit = unit.toList := by
  obtain ⟨c, rest, hunit, hc⟩ := exists_cons_of_mem_units h
  rw [List.takeWhile_append_of_pos digits, List.dropWhile_append_of_pos digits, hunit,
    List.takeWhile_cons_of_neg (by simp [hc]), List.dropWhile_cons_of_neg (by simp [hc])]
  exact ⟨List.append_nil count, rfl⟩

/-- **A text is an interval if it is written as one.** -/
theorem isInterval_iff {text : String} : isInterval text = true ↔ Written text := by
  simp only [isInterval, Bool.or_eq_true, Bool.and_eq_true, List.contains_iff_mem,
    Bool.not_eq_true', List.isEmpty_eq_false_iff]
  constructor
  · rintro (h | ⟨hne, hunit⟩)
    · exact .calendar h
    · -- putting the two parts together again gives the text
      have hsplit : String.ofList (text.toList.takeWhile Text.isDecimalDigit) ++
          String.ofList (text.toList.dropWhile Text.isDecimalDigit) = text := by
        rw [← String.ofList_append, List.takeWhile_append_dropWhile, String.ofList_toList]
      rw [← hsplit]
      exact .counted hne (List.all_eq_true.mp List.all_takeWhile) hunit
  · rintro (h | ⟨hne, digits, hunit⟩)
    · -- a calendar unit is compared as a whole
      exact Or.inl h
    · refine Or.inr ?_
      obtain ⟨htake, hdrop⟩ := takeWhile_counted digits hunit
      rw [String.toList_append, String.toList_ofList, htake, hdrop, String.ofList_toList]
      exact ⟨hne, hunit⟩

end SearchIndex.Interval
