import SearchIndex.Proofs.Aggregation.Session

/-!
# The documented intervals

An interval is documented as a count and a unit, `30s` or `500ms`, with the name of a calendar
unit as the other form (`Interval.Documented`). What a date histogram accepts is wider. A count
may be written with the decimal digits of any script, so that a `d` behind an Arabic three is
accepted and sent as it is.

The two grammars differ in nothing else. The units and the names are ASCII, and an ASCII
character that is a decimal digit of some script is one of `0` to `9`; so the documented
intervals are the accepted ones in which every character is ASCII (`Interval.documented_iff`).
`Aggregation.interval_accepted` says of any text whether it is accepted, what the histogram is
after the call, and how this compares with the documentation.
-/

namespace SearchIndex

namespace Interval

/-- The ways to write an interval that are documented: a count of the digits `0` to `9` with a
unit behind it, or the name of a calendar unit. -/
inductive Documented : String → Prop where
  | calendar {name : String} (h : name ∈ calendarUnits) : Documented name
  | counted {count : List Char} {unit : String} (ne : count ≠ [])
      (digits : ∀ c ∈ count, c.isDigit = true) (h : unit ∈ units) :
      Documented (String.ofList count ++ unit)

/-- A text of ASCII characters only. -/
def Ascii (text : String) : Prop := ∀ c ∈ text.toList, c.toNat < 128

/-- What comes with an interval besides the digits is ASCII. -/
theorem ascii_of_mem {name : String} (h : name ∈ calendarUnits ++ units) : Ascii name := by
  -- there are finitely many names to look at
  have hall : (calendarUnits ++ units).all (fun name => name.toList.all (·.toNat < 128)) = true :=
    rfl
  intro c hc
  have hname := List.all_eq_true.mp hall name h
  exact of_decide_eq_true (List.all_eq_true.mp hname c hc)

/-- Among the ASCII characters, the decimal digits of any script are `0` to `9`. -/
theorem isDigit_of_isDecimalDigit {c : Char} (hascii : c.toNat < 128)
    (h : Text.isDecimalDigit c = true) : c.isDigit = true := by
  obtain ⟨range, hrange, hin⟩ := List.any_eq_true.mp h
  simp only [Bool.and_eq_true, decide_eq_true_eq] at hin
  -- all ranges but the first lie behind the ASCII characters
  rcases List.mem_cons.mp hrange with rfl | hrange
  · simpa [Char.isDigit, UInt32.le_iff_toNat_le] using hin
  · have hbehind : ∀ r ∈ Text.decimalDigitRanges.tail, 128 ≤ r.1 := by decide
    have hlow := hbehind range hrange
    omega

/-- A digit `0` to `9` is an ASCII character. -/
theorem toNat_lt_of_isDigit {c : Char} (h : c.isDigit = true) : c.toNat < 128 := by
  simp only [Char.isDigit, Bool.and_eq_true, decide_eq_true_eq, ge_iff_le,
    UInt32.le_iff_toNat_le] at h
  exact Nat.lt_of_le_of_lt h.2 (by decide)

/-- **The documented intervals are the ASCII ones** among those that are accepted. -/
theorem documented_iff {text : String} : Documented text ↔ Written text ∧ Ascii text := by
  constructor
  · rintro (h | ⟨hne, digits, hunit⟩)
    · exact ⟨.calendar h, ascii_of_mem (List.mem_append_left _ h)⟩
    · refine ⟨.counted hne (fun c hc => Text.isDecimalDigit_of_isDigit c (digits c hc)) hunit,
        fun c hc => ?_⟩
      -- a character of the count or one of the unit
      rw [String.toList_append, String.toList_ofList, List.mem_append] at hc
      rcases hc with hc | hc
      · exact toNat_lt_of_isDigit (digits c hc)
      · exact ascii_of_mem (List.mem_append_right _ hunit) c hc
  · rintro ⟨h | ⟨hne, digits, hunit⟩, hascii⟩
    · exact .calendar h
    · -- a counted one, because the digits of an ASCII text are ASCII digits
      refine .counted hne (fun c hc => isDigit_of_isDecimalDigit (hascii c ?_) (digits c hc)) hunit
      rw [String.toList_append, String.toList_ofList]
      exact List.mem_append_left _ hc

end Interval

open SearchIndex.Interval (Written Documented Ascii)

/-- An interval is set if it is written as one, and refused as it stands otherwise. -/
theorem DateHistogram.setInterval_some (g : DateHistogram) (text : String) :
    Written text ∧ g.setInterval (some text) = .ok { g with interval := some text } ∨
      ¬Written text ∧ g.setInterval (some text) = .error (.validation (.interval text)) := by
  rw [setInterval]
  split
  · next hinterval => exact .inl ⟨Interval.isInterval_iff.mp hinterval, rfl⟩
  · next hinterval => exact .inr ⟨fun h => hinterval (Interval.isInterval_iff.mpr h), rfl⟩

namespace Aggregation

/-- **Which texts a date histogram accepts as its interval.** A text that is written as an
interval, in the digits of any script, is set, and nothing else of the histogram changes. Any
other is refused, with an error that quotes it; the histogram stays what it was, and so does
what it sends. On ASCII texts these are the documented intervals. -/
theorem interval_accepted (g : DateHistogram) (children : Aggregations) (text : String) :
    let histogram := grouping (.dateHistogram g) children
    let set := call (.interval (some text))
    (set.outcome histogram = .ok () ↔ Written text) ∧
      (Written text → set.after histogram =
        grouping (.dateHistogram { g with interval := some text }) children) ∧
      (¬Written text → set.outcome histogram = .error (.validation (.interval text)) ∧
        set.after histogram = histogram ∧ (set.after histogram).render = histogram.render) ∧
      (Documented text ↔ set.outcome histogram = .ok () ∧ Ascii text) := by
  intro histogram set
  have hperforms := call_performs (.interval (some text))
  -- the change of the tree is that of the parameters
  have hchange : histogram.change (.interval (some text)) =
      (g.setInterval (some text)).map fun g' => grouping (.dateHistogram g') children := by
    change Except.map _ (Except.map _ _) = _
    cases g.setInterval (some text) <;> rfl
  rcases g.setInterval_some text with ⟨hwritten, hset⟩ | ⟨hwritten, hset⟩
  · -- accepted: the text is written as an interval, in ASCII or not
    rw [hset] at hchange
    obtain ⟨hok, hafter⟩ := hperforms.of_ok hchange
    refine ⟨iff_of_true hok hwritten, fun _ => hafter, fun h => absurd hwritten h, ?_⟩
    rw [Interval.documented_iff]
    exact and_congr_left fun _ => iff_of_true hwritten hok
  · -- refused: nothing has been written, so nothing else is sent
    rw [hset] at hchange
    obtain ⟨herror, hafter⟩ := hperforms.of_error hchange
    have hrefused : set.outcome histogram ≠ .ok () := fun h => by
      rw [herror] at h
      cases h
    refine ⟨iff_of_false hrefused hwritten, fun h => absurd h hwritten,
      fun _ => ⟨herror, hafter, congrArg render hafter⟩, ?_⟩
    rw [Interval.documented_iff]
    exact and_congr_left fun _ => iff_of_false hwritten hrefused

/-- An interval that is accepted need not be a documented one: an Arabic three counts days. -/
theorem not_forall_accepted_documented :
    ¬∀ (g : DateHistogram) (children : Aggregations) (text : String),
      (call (.interval (some text))).outcome (grouping (.dateHistogram g) children) = .ok () ↔
        Documented text := by
  intro h
  -- the histogram accepts the text, so it would have to be a documented one
  have hdocumented := (h ⟨"foo", some "1d", none, none⟩ .empty "٣d").mp rfl
  have hascii := (Interval.documented_iff.mp hdocumented).2
  exact absurd (hascii '٣' (by decide)) (by decide)

end Aggregation

end SearchIndex
