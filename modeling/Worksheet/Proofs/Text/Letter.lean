import Mathlib.Data.List.TakeWhile
import Worksheet.Text.Blank
import Worksheet.Text.Word

/-!
# Letters and Digits as Code Points

The character classes of the notation, read as inequalities between code
points.

A class is defined by comparing characters, which is how a reader checks it,
but comparisons of characters are opaque to arithmetic. Each class is
therefore restated once over `Char.toNat`, and every other fact about letters,
digits and capitals follows from these restatements by linear arithmetic.

## Theorems

* `isLetter_iff`, `isDigit_iff`: The classes as ranges of code points.
* `toNat_upper`: The code point of a capital.
* `isLetter_upper`, `isDigit_upper`: Capitals stay in their class.
* `upper_upper`: A capital is its own capital.
* `upper_of_not_isLetter`: Only letters change.
* `isLetter_of_isDecimal`, `isWord_of_isDecimal`: The digits of all scripts.
* `isDigit_of_mem_toDigits`, `toList_toString`: The digits of a number and the text of an integer.
* `trimChars_of_not_isBlank`: Text without blanks is not trimmed.
* `trimChars_append_cons`: Trimming on both sides of a character.
* `mem_trimChars`: What stands between characters that are not blank is kept.
-/

namespace Worksheet

namespace Text

/-- Characters are ordered as their code points are. -/
theorem char_le_iff (c d : Char) : c ≤ d ↔ c.toNat ≤ d.toNat := Iff.rfl

/-- Below the surrogates every number is the code point of a character. -/
theorem toNat_ofNat {n : Nat} (h : n < 55296) : (Char.ofNat n).toNat = n := by
  unfold Char.ofNat
  rw [dif_pos (Or.inl h)]
  rfl

theorem isLetter_iff (c : Char) :
    isLetter c = true ↔ (97 ≤ c.toNat ∧ c.toNat ≤ 122) ∨ (65 ≤ c.toNat ∧ c.toNat ≤ 90) := by
  simp [isLetter, char_le_iff]

theorem isDigit_iff (c : Char) : isDigit c = true ↔ 48 ≤ c.toNat ∧ c.toNat ≤ 57 := by
  simp [isDigit, char_le_iff]

theorem toNat_upper (c : Char) :
    (upper c).toNat = if 97 ≤ c.toNat ∧ c.toNat ≤ 122 then c.toNat - 32 else c.toNat := by
  have h : ('a' ≤ c && c ≤ 'z') = true ↔ 97 ≤ c.toNat ∧ c.toNat ≤ 122 := by
    simp [char_le_iff]
  unfold upper
  by_cases hc : 97 ≤ c.toNat ∧ c.toNat ≤ 122
  · rw [if_pos (h.2 hc), if_pos hc, toNat_ofNat (by omega)]
  · rw [if_neg (mt h.1 hc), if_neg hc]

@[simp] theorem isLetter_upper (c : Char) : isLetter (upper c) = isLetter c := by
  rw [Bool.eq_iff_iff, isLetter_iff, isLetter_iff, toNat_upper]
  split <;> omega

@[simp] theorem isDigit_upper (c : Char) : isDigit (upper c) = isDigit c := by
  rw [Bool.eq_iff_iff, isDigit_iff, isDigit_iff, toNat_upper]
  split <;> omega

@[simp] theorem upper_upper (c : Char) : upper (upper c) = upper c := by
  rw [← Char.toNat_inj, toNat_upper, toNat_upper]
  by_cases h : 97 ≤ c.toNat ∧ c.toNat ≤ 122
  · rw [if_pos h, if_neg (by omega)]
  · rw [if_neg h, if_neg h]

/-- A character that is no letter is left alone. -/
theorem upper_of_not_isLetter {c : Char} (h : isLetter c = false) : upper c = c := by
  have hc := mt (isLetter_iff c).2 (by simp [h])
  rw [← Char.toNat_inj, toNat_upper, if_neg (by omega)]

/-- No character is a letter and a digit at once. -/
theorem isDigit_of_isLetter {c : Char} (h : isLetter c = true) : isDigit c = false := by
  have hl := (isLetter_iff c).1 h
  rw [← Bool.not_eq_true, isDigit_iff]
  omega

theorem isLetter_of_isDigit {c : Char} (h : isDigit c = true) : isLetter c = false := by
  have hd := (isDigit_iff c).1 h
  rw [← Bool.not_eq_true, isLetter_iff]
  omega

/-- Letters are word characters. -/
theorem isWord_of_isLetter {c : Char} (h : isLetter c = true) : isWord c = true := by
  have hlt : c.toNat < 128 := by
    rw [isLetter_iff] at h
    omega
  unfold isWord
  rw [if_pos hlt, h]
  rfl

/-- The digits of the notation are those that core writes numbers with. -/
theorem isDigit_eq (c : Char) : isDigit c = c.isDigit := by
  rw [Bool.eq_iff_iff, isDigit_iff, Char.isDigit_iff_toNat]
  rfl

/-- The digits that core writes a number with. -/
theorem isDigit_of_mem_toDigits {n : Nat} {c : Char} (h : c ∈ Nat.toDigits 10 n) :
    isDigit c = true := by
  rw [isDigit_eq]
  exact Nat.isDigit_of_mem_toDigits (by decide) (by decide) h

/-- The digits of the notation are among the digits of all scripts. -/
theorem isDecimal_of_isDigit {c : Char} (h : isDigit c = true) : isDecimal c = true := by
  have hlt : c.toNat < 128 := by
    have := (isDigit_iff c).1 h
    omega
  rw [isDecimal, if_pos hlt, h]

/-- A digit of any script is no letter. -/
theorem isLetter_of_isDecimal {c : Char} (h : isDecimal c = true) : isLetter c = false := by
  unfold isDecimal at h
  split at h
  · exact isLetter_of_isDigit h
  · rw [← Bool.not_eq_true, isLetter_iff]
    omega

/-- Every range of digits lies in a range of word characters. -/
theorem digitRanges_within :
    (digitRanges.all fun r => wordRanges.any fun s => s.1.ble r.1 && r.2.ble s.2) = true := by
  decide +kernel

/-- Digits of every script are word characters. -/
theorem isWord_of_isDecimal {c : Char} (h : isDecimal c = true) : isWord c = true := by
  unfold isDecimal at h
  unfold isWord
  split at h
  · rename_i hascii
    rw [if_pos hascii, h, Bool.or_true, Bool.true_or]
  · rename_i hascii
    rw [if_neg hascii]
    have hwithin := digitRanges_within
    unfold inRanges at h ⊢
    simp only [List.any_eq_true, List.all_eq_true, Bool.and_eq_true, decide_eq_true_eq,
      Nat.ble_eq] at h hwithin ⊢
    obtain ⟨r, hr, hlow, hhigh⟩ := h
    obtain ⟨s, hs, hlow', hhigh'⟩ := hwithin r hr
    exact ⟨s, hs, hlow'.trans hlow, hhigh.trans hhigh'⟩

/-- The text of an integer. -/
theorem toList_toString (z : Int) : (toString z).toList =
    (if z < 0 then ['-'] else []) ++ Nat.toDigits 10 z.natAbs := by
  rw [Int.toString_eq_repr, Int.repr_eq_if]
  by_cases hz : 0 ≤ z
  · rw [if_pos hz, if_neg (Int.not_lt.2 hz), Nat.toList_repr, ← Int.toNat_of_nonneg hz]
    rfl
  · have habs : (-z).toNat = z.natAbs := by omega
    rw [if_neg hz, if_pos (Int.not_le.1 hz), String.toList_append, Nat.toList_repr, habs]
    rfl

/-- No digit is blank. -/
theorem not_isBlank_of_isDigit {c : Char} (h : isDigit c = true) : isBlank c = false := by
  rw [isDigit_iff] at h
  unfold isBlank
  simp only [Bool.or_eq_false_iff, Bool.and_eq_false_iff, decide_eq_false_iff_not,
    beq_eq_false_iff_ne]
  omega

/-- No letter is blank. -/
theorem not_isBlank_of_isLetter {c : Char} (h : isLetter c = true) : isBlank c = false := by
  rw [isLetter_iff] at h
  unfold isBlank
  simp only [Bool.or_eq_false_iff, Bool.and_eq_false_iff, decide_eq_false_iff_not,
    beq_eq_false_iff_ne]
  omega

/-- Text without blanks is not trimmed. -/
theorem trimChars_of_not_isBlank {cs : List Char} (h : ∀ c ∈ cs, isBlank c = false) :
    trimChars cs = cs := by
  have keep {ds : List Char} (hd : ∀ c ∈ ds, isBlank c = false) : ds.dropWhile isBlank = ds := by
    cases ds with
    | nil => rfl
    | cons d ds => rw [List.dropWhile_cons_of_neg]; simp [hd d (by simp)]
  unfold trimChars
  rw [keep h, keep (by simpa using h), List.reverse_reverse]

/-- Both sides of a character that is not blank are trimmed apart from each other. -/
theorem trimChars_append_cons (p q : List Char) {c : Char} (h : isBlank c = false) :
    trimChars (p ++ c :: q) =
      p.dropWhile isBlank ++ c :: (q.reverse.dropWhile isBlank).reverse := by
  have hdrop (p q : List Char) :
      (p ++ c :: q).dropWhile isBlank = p.dropWhile isBlank ++ c :: q := by
    have hc : (c :: q).dropWhile isBlank = c :: q := List.dropWhile_cons_of_neg (by simp [h])
    rw [List.dropWhile_append, hc]
    split
    · rename_i hempty
      rw [List.isEmpty_iff.1 hempty, List.nil_append]
    · rfl
  unfold trimChars
  rw [hdrop, List.reverse_append, List.reverse_cons, List.append_assoc, List.singleton_append,
    hdrop]
  simp

/-- A character is kept when one that is not blank follows it and the text does
    not begin with a blank. -/
theorem mem_trimChars {p q : List Char} {c d : Char} (hd : d ∈ q) (hblank : isBlank d = false)
    (hhead : ∀ e ∈ (p ++ c :: q).head?, isBlank e = false) : c ∈ trimChars (p ++ c :: q) := by
  have hleft : (p ++ c :: q).dropWhile isBlank = p ++ c :: q := by
    cases hcs : p ++ c :: q with
    | nil => rfl
    | cons e es =>
      rw [hcs] at hhead
      rw [List.dropWhile_cons_of_neg]
      simp [hhead e (by simp)]
  unfold trimChars
  rw [hleft, List.reverse_append, List.reverse_cons, List.append_assoc, List.dropWhile_append]
  have hne : (q.reverse.dropWhile isBlank).isEmpty = false := by
    cases hq : q.reverse.dropWhile isBlank with
    | nil =>
      rw [List.dropWhile_eq_nil_iff] at hq
      have := hq d (by simpa using hd)
      rw [hblank] at this
      exact absurd this (by simp)
    | cons e es => rfl
  rw [hne]
  simp

end Text

end Worksheet
