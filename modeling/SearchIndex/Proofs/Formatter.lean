import SearchIndex.Formatter
import SearchIndex.Proofs.Instant
import SearchIndex.Proofs.Number.Value

/-!
# Dates in results

The formatter of a definition looks up the field that a value comes from and, if this is declared
as a date, takes a number for milliseconds since the first of 1970 and writes the timestamp of
that instant. `Formatter.ofDefinition_lossless` says that nothing gets lost in this way: the
timestamp of an instant is read as the same instant (`Instant.read?_text`), and all values that do
not count the milliseconds of an instant, and those of other fields, stay as they are.
-/

namespace SearchIndex

/-- The path leads to a field that is declared as a date. -/
def Definition.DeclaresDate (d : Definition) (path : Option String) : Prop :=
  ∃ p f, path = some p ∧ d.find? p = some f ∧ f.declaredType? = some "date"

/-- The value is a number, which stands for an instant that has a timestamp: its fraction is cut
off, and what does not fit 64 bits is brought to the nearest number that does. -/
def Json.Counts (value : Json) (millis : Int) : Prop :=
  ∃ n, value = .number n ∧ millis = Formatter.saturate (towardZero n.value) ∧
    Instant.least ≤ millis ∧ millis ≤ Instant.greatest

namespace Formatter

variable {d : Definition} {path : Option String} {value : Json} {millis : Int}

/-- The whole part of a number is its value without the fraction, in both sorts. -/
theorem millis?_number (n : Number) :
    millis? (.number n) = some (saturate (towardZero n.value)) := by
  cases n with
  | int k =>
    -- a whole number is its own whole part
    show some (saturate k) = some (saturate (towardZero k))
    rw [towardZero_intCast]
  | real x =>
    -- the fraction of a binary64 number is cut off
    show some (saturate x.truncate) = some (saturate (towardZero x.value))
    rw [Binary64.truncate_eq]

/-- Numbers have milliseconds, and no other values do. -/
theorem millis?_eq_some_iff :
    millis? value = some millis ↔
      ∃ n, value = .number n ∧ millis = saturate (towardZero n.value) := by
  constructor
  · intro h
    cases value with
    | number n =>
      rw [millis?_number] at h
      exact ⟨n, rfl, (Option.some.inj h).symm⟩
    | _ => cases h
  · rintro ⟨n, rfl, rfl⟩
    exact millis?_number n

/-- A number is written as a timestamp exactly if it stands for an instant that has one. -/
theorem bind_text?_eq_some_iff {text : String} :
    (millis? value).bind Instant.text? = some text ↔
      ∃ millis, value.Counts millis ∧ text = Instant.text millis := by
  rw [Option.bind_eq_some_iff]
  unfold Instant.text? Json.Counts
  constructor
  · rintro ⟨millis, hmillis, htext⟩
    obtain ⟨n, hvalue, hn⟩ := millis?_eq_some_iff.mp hmillis
    split at htext
    · rename_i hrange
      -- the instant lies where timestamps are written
      exact ⟨millis, ⟨n, hvalue, hn, hrange⟩, (Option.some.inj htext).symm⟩
    · cases htext
  · rintro ⟨millis, ⟨n, hvalue, hn, hrange⟩, rfl⟩
    exact ⟨millis, millis?_eq_some_iff.mpr ⟨n, hvalue, hn⟩, if_pos hrange⟩

/-- A number that stands for an instant with a timestamp is written as that. -/
theorem date_of_counts (h : value.Counts millis) : date value = .string (Instant.text millis) := by
  unfold date
  rw [bind_text?_eq_some_iff.mpr ⟨millis, h, rfl⟩]

/-- Any other value is written as it is, at a date field as well. -/
theorem date_of_not_counts (h : ¬∃ millis, value.Counts millis) : date value = value := by
  unfold date
  cases htext : (millis? value).bind Instant.text? with
  | none => rfl
  | some text =>
    obtain ⟨millis, hcounts, -⟩ := bind_text?_eq_some_iff.mp htext
    exact absurd ⟨millis, hcounts⟩ h

/-- The formatter and the specification mean the same by a date field. -/
theorem declaresDate_iff :
    (path.bind (fun p => d.find? p)).bind Field.declaredType? = some "date" ↔
      d.DeclaresDate path := by
  unfold Definition.DeclaresDate
  simp only [Option.bind_eq_some_iff]
  constructor
  · rintro ⟨f, ⟨p, hp, hf⟩, htype⟩
    exact ⟨p, f, hp, hf, htype⟩
  · rintro ⟨p, f, hp, hf, htype⟩
    exact ⟨f, ⟨p, hp, hf⟩, htype⟩

theorem ofDefinition_of_counts (hpath : d.DeclaresDate path) (h : value.Counts millis) :
    ofDefinition d path value = .string (Instant.text millis) := by
  unfold ofDefinition
  rw [if_pos (declaresDate_iff.mpr hpath), date_of_counts h]

theorem ofDefinition_eq_self (h : ¬(d.DeclaresDate path ∧ ∃ millis, value.Counts millis)) :
    ofDefinition d path value = value := by
  unfold ofDefinition
  split
  · rename_i hdate
    -- at a date field, the value is the reason why nothing is written
    exact date_of_not_counts fun hcounts => h ⟨declaresDate_iff.mp hdate, hcounts⟩
  · rfl

/-- **Formatting loses nothing.** A number at a date field that stands for an instant is written
as a timestamp which is read as this instant, so that numbers that stand for different instants
are never written alike. Any other value stays as it is, and so does one that has been formatted
before. -/
theorem ofDefinition_lossless (d : Definition) (path : Option String) (value : Json) :
    (∀ millis, d.DeclaresDate path → value.Counts millis →
      ∃ text, ofDefinition d path value = .string text ∧ Instant.read? text = some millis) ∧
    (¬(d.DeclaresDate path ∧ ∃ millis, value.Counts millis) →
      ofDefinition d path value = value) ∧
    (∀ d' path' value' m n, d.DeclaresDate path → value.Counts m →
      d'.DeclaresDate path' → value'.Counts n →
      ofDefinition d path value = ofDefinition d' path' value' → m = n) ∧
    ofDefinition d path (ofDefinition d path value) = ofDefinition d path value := by
  refine ⟨fun millis hpath h => ?_, ofDefinition_eq_self, fun d' path' value' m n hpath hm hpath' hn
    heq => ?_, ?_⟩
  · exact ⟨_, ofDefinition_of_counts hpath h, Instant.read?_text millis⟩
  · -- equal texts are timestamps of equal instants
    rw [ofDefinition_of_counts hpath hm, ofDefinition_of_counts hpath' hn] at heq
    exact Instant.text_injective (Json.string.inj heq)
  · by_cases h : d.DeclaresDate path ∧ ∃ millis, value.Counts millis
    · -- what has been written is a text, and no number any more
      obtain ⟨hpath, millis, hcounts⟩ := h
      rw [ofDefinition_of_counts hpath hcounts]
      refine ofDefinition_eq_self ?_
      rintro ⟨-, _, _, htext, -⟩
      cases htext
    · -- what was not written as a timestamp is the same value still
      rw [ofDefinition_eq_self h, ofDefinition_eq_self h]

/-- The year 1900 was no leap year: the last millisecond of its February lies on the 28th. -/
example :
    let author : Definition := ⟨[], none, [.typed "born" "date"], .empty⟩
    let posts : Definition := ⟨[], none, [⟨"author", .empty, false, some author⟩], .empty⟩
    ofDefinition posts (some "author.born") (.number (.int (-2203891200001))) =
        .string "1900-02-28T23:59:59.999Z" ∧
      Instant.read? "1900-02-29T00:00:00.000Z" = none := ⟨rfl, rfl⟩

end Formatter

end SearchIndex
