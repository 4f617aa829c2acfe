import SearchIndex.Text.Blank
import Mathlib.Data.List.DropRight

/-!
# Trimming

Trimming takes blanks off both ends of a text. What it leaves starts and ends with characters
that are no blanks (`Text.isBlank_of_head?_trimBlanks`, `Text.isBlank_of_getLast?_trimBlanks`),
and a text that does so is left as it is (`Text.trimBlanks_eq_self`). The case of letters plays
no part (`Text.trimBlanks_map_toLower`).
-/

namespace SearchIndex.Text

variable {cs : List Char} {c : Char}

theorem trimBlanks_eq (cs : List Char) :
    trimBlanks cs = (cs.dropWhile isBlank).rdropWhile isBlank := rfl

/-- What is left is the start of the text behind its first blanks. -/
theorem trimBlanks_isPrefix (cs : List Char) : trimBlanks cs <+: cs.dropWhile isBlank :=
  List.rdropWhile_prefix isBlank (cs.dropWhile isBlank)

theorem trimBlanks_sublist (cs : List Char) : (trimBlanks cs).Sublist cs :=
  (trimBlanks_isPrefix cs).sublist.trans (List.dropWhile_suffix isBlank).sublist

theorem isBlank_of_head?_trimBlanks (h : (trimBlanks cs).head? = some c) : isBlank c = false := by
  -- what is taken off the end does not change the start, unless nothing is left
  obtain ⟨taken, htaken⟩ := trimBlanks_isPrefix cs
  have hhead : (cs.dropWhile isBlank).head? = some c := by
    rw [← htaken, List.head?_append, h]
    rfl
  have hnot := List.head?_dropWhile_not isBlank cs
  rw [hhead] at hnot
  exact hnot

/-- What is left does not end with a blank. -/
theorem isBlank_of_getLast?_trimBlanks (h : (trimBlanks cs).getLast? = some c) :
    isBlank c = false := by
  obtain ⟨hne, rfl⟩ := List.mem_getLast?_eq_getLast h
  exact eq_false_of_ne_true (List.rdropWhile_last_not isBlank (cs.dropWhile isBlank) hne)

/-- **A text without blanks at its ends stays as it is.** -/
theorem trimBlanks_eq_self (hhead : ∀ c, cs.head? = some c → isBlank c = false)
    (hlast : ∀ c, cs.getLast? = some c → isBlank c = false) : trimBlanks cs = cs := by
  -- there is nothing to take off in front, and then nothing at the end
  have hfront : cs.dropWhile isBlank = cs := by
    cases cs with
    | nil => rfl
    | cons c rest => exact List.dropWhile_cons_of_neg (by simp [hhead c rfl])
  rw [trimBlanks_eq, hfront, List.rdropWhile_eq_self_iff]
  intro hne
  simp [hlast _ (List.getLast?_eq_some_getLast hne)]

@[simp] theorem trimBlanks_trimBlanks (cs : List Char) :
    trimBlanks (trimBlanks cs) = trimBlanks cs :=
  trimBlanks_eq_self (fun _ => isBlank_of_head?_trimBlanks)
    (fun _ => isBlank_of_getLast?_trimBlanks)

/-! ### Lower case -/

/-- A character stays as it is in lower case, or is one of the 26 letters that move. -/
theorem toLower_eq_or (c : Char) :
    c.toLower = c ∨
      (65 ≤ c.toNat ∧ c.toNat ≤ 90) ∧ c.toLower.toNat = c.toNat + 32 := by
  by_cases hletter : 'A'.val ≤ c.val ∧ c.val ≤ 'Z'.val
  · have hlow : 65 ≤ c.toNat := UInt32.le_iff_toNat_le.mp hletter.1
    have hhigh : c.toNat ≤ 90 := UInt32.le_iff_toNat_le.mp hletter.2
    have hmoved : c.toLower.val = c.val + 32 := congrArg Char.val (dif_pos hletter)
    -- the sum is far from the bound of 32 bits
    have hbound : c.toNat + 32 < 4294967296 := by omega
    refine Or.inr ⟨⟨hlow, hhigh⟩, ?_⟩
    rw [← Char.toNat_val, hmoved, UInt32.toNat_add, Char.toNat_val]
    exact Nat.mod_eq_of_lt hbound
  · exact Or.inl (dif_neg hletter)

/-- There is no blank among the letters or between them. -/
theorem isBlank_eq_false_of_le (h : 65 ≤ c.toNat ∧ c.toNat ≤ 122) : isBlank c = false := by
  simp only [isBlank, inRanges, blankRanges, List.any_cons, List.any_nil, Bool.or_false,
    Bool.or_eq_false_iff, Bool.and_eq_false_iff, decide_eq_false_iff_not]
  omega

theorem isBlank_toLower (c : Char) : isBlank c.toLower = isBlank c := by
  rcases toLower_eq_or c with h | ⟨hletter, h⟩
  · rw [h]
  · rw [isBlank_eq_false_of_le ⟨hletter.1, by omega⟩, isBlank_eq_false_of_le (by omega)]

theorem toLower_toLower (c : Char) : c.toLower.toLower = c.toLower := by
  rcases toLower_eq_or c with h | ⟨hletter, h⟩
  · exact congrArg Char.toLower h
  · -- a letter that has moved does not move again
    rcases toLower_eq_or c.toLower with h' | ⟨hletter', -⟩
    · exact h'
    · omega

theorem toLower_eq_colon_iff : c.toLower = ':' ↔ c = ':' := by
  rcases toLower_eq_or c with h | ⟨hletter, h⟩
  · rw [h]
  · -- a letter that moves goes up by 32, beyond the colon, and is none itself
    have hcolon : ':'.toNat = 58 := rfl
    rw [← Char.toNat_inj, ← Char.toNat_inj]
    omega

theorem trimBlanks_map_toLower (cs : List Char) :
    trimBlanks (cs.map Char.toLower) = (trimBlanks cs).map Char.toLower := by
  have hblank : isBlank ∘ Char.toLower = isBlank := funext isBlank_toLower
  rw [trimBlanks, trimBlanks, List.dropWhile_map, hblank, ← List.map_reverse, List.dropWhile_map,
    hblank, List.map_reverse]

end SearchIndex.Text
