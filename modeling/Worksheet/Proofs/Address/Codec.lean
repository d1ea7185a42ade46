import Mathlib.Algebra.Group.Nat.Defs
import Worksheet.Proofs.Address.Notation

/-!
# The Notation is Exact

Which texts are read, and what is written back.

A cell is written in capitals and without zeros in front, so a text that is read
and written again comes back in that form, and only what is in that form comes back
as it was. For letters that is known from the numeral of their value. For digits it
is shown from the first one that is not zero: it is written alone, and every digit
that follows is written behind those before it.

A range has two pairs of opposite corners, and each pair has two orders. All four
name the same range, and no other pair of cells does.

## Main definitions

* `Range.corners`: The four ways to name a range.

## Theorems

* `toDigits_ofDigitChars`: Writing back a number that was read drops the zeros in front.
* `Spells.toChars_eq`: What a cell that is spelled is written back as.
* `isSome_ofText?_iff`: The texts that spell a cell.
* `Range.mem_corners_iff`: Which pairs of cells name a range.
* `spelling_codec`: Cells and ranges read back exactly what is written.
-/

namespace Worksheet

namespace Text

/-! ## Digits -/

/-- A digit counts less than ten. -/
theorem toNat_sub_lt {c : Char} (h : isDigit c = true) : c.toNat - '0'.toNat < 10 := by
  have hrange := (isDigit_iff c).1 h
  rw [show '0'.toNat = 48 from rfl]
  omega

/-- A digit is written as it was read. -/
theorem digitChar_toNat {c : Char} (h : isDigit c = true) :
    (c.toNat - '0'.toNat).digitChar = c := by
  have hrange := (isDigit_iff c).1 h
  rw [← Char.toNat_inj, Nat.toNat_digitChar_of_lt_ten (toNat_sub_lt h),
    show '0'.toNat = 48 from rfl]
  omega

/-- Digits that follow a positive number are written back behind it. -/
theorem toDigits_append {ds : List Char} (hdigits : ∀ c ∈ ds, isDigit c = true) {n : Nat}
    (hpos : 0 < n) : Nat.toDigits 10 n ++ ds = Nat.toDigits 10 (Nat.ofDigitChars 10 ds n) := by
  induction ds generalizing n with
  | nil => rw [List.append_nil, Nat.ofDigitChars_nil]
  | cons d ds ih =>
    have hd : isDigit d = true := hdigits d List.mem_cons_self
    have hlt : d.toNat - '0'.toNat < 10 := toNat_sub_lt hd
    have hone : Nat.toDigits 10 (d.toNat - '0'.toNat) = [d] := by
      rw [Nat.toDigits_of_lt_base hlt, digitChar_toNat hd]
    have hnext : Nat.toDigits 10 n ++ [d] = Nat.toDigits 10 (10 * n + (d.toNat - '0'.toNat)) := by
      rw [← hone, Nat.toDigits_append_toDigits (by decide) hpos hlt]
    calc Nat.toDigits 10 n ++ d :: ds
        = (Nat.toDigits 10 n ++ [d]) ++ ds := by simp
      _ = Nat.toDigits 10 (10 * n + (d.toNat - '0'.toNat)) ++ ds := by rw [hnext]
      _ = Nat.toDigits 10 (Nat.ofDigitChars 10 ds (10 * n + (d.toNat - '0'.toNat))) :=
        ih (fun c hc => hdigits c (List.mem_cons_of_mem d hc)) (by omega)
      _ = Nat.toDigits 10 (Nat.ofDigitChars 10 (d :: ds) n) := by rw [Nat.ofDigitChars_cons]

/-- Writing back a number that was read drops the zeros in front. -/
theorem toDigits_ofDigitChars {ds : List Char} (hdigits : ∀ c ∈ ds, isDigit c = true)
    (hpos : Nat.ofDigitChars 10 ds 0 ≠ 0) :
    Nat.toDigits 10 (Nat.ofDigitChars 10 ds 0) = ds.dropWhile (· == '0') := by
  induction ds with
  | nil => exact absurd rfl hpos
  | cons d ds ih =>
    have hd : isDigit d = true := hdigits d List.mem_cons_self
    have hds : ∀ c ∈ ds, isDigit c = true := fun c hc => hdigits c (List.mem_cons_of_mem d hc)
    rw [Nat.ofDigitChars_cons, Nat.mul_zero, Nat.zero_add] at hpos ⊢
    by_cases hzero : d = '0'
    · subst hzero
      exact ih hds hpos
    · -- The first digit that is no zero begins the number that is written.
      have hfirst : 0 < d.toNat - '0'.toNat := by
        have hrange := (isDigit_iff d).1 hd
        have hne : d.toNat ≠ '0'.toNat := fun h => hzero (Char.toNat_inj.1 h)
        rw [show '0'.toNat = 48 from rfl] at hne ⊢
        omega
      rw [← toDigits_append hds hfirst, Nat.toDigits_of_lt_base (toNat_sub_lt hd),
        digitChar_toNat hd, List.dropWhile_cons_of_neg (by simpa using hzero)]
      rfl

end Text

namespace CellRef

open Address

/-! ## Cells -/

/-- A cell that is spelled is written back in capitals and without zeros in front. -/
theorem Spells.toChars_eq {letters digits : List Char} {r : CellRef}
    (h : Spells letters digits r) :
    r.toChars = letters.map Text.upper ++ digits.dropWhile (· == '0') := by
  have hrow : Nat.ofDigitChars 10 digits 0 ≠ 0 := by
    rw [h.row]
    exact Nat.succ_ne_zero r.row
  rw [toChars, h.columnLetters_eq, next_of_lt h.row_lt, ← h.row,
    Text.toDigits_ofDigitChars h.isDigit hrow]

/-- The texts that spell a cell are letters followed by digits, with values that fit. -/
theorem isSome_ofText?_iff (s : String) :
    (ofText? s).isSome = true ↔ ∃ letters digits, s.toList = letters ++ digits ∧
      (letters ≠ [] ∧ (∀ c ∈ letters, Text.isLetter c = true) ∧
        numeralValue letters < gridLimit) ∧
      digits ≠ [] ∧ (∀ c ∈ digits, Text.isDigit c = true) ∧
        1 ≤ Nat.ofDigitChars 10 digits 0 ∧ Nat.ofDigitChars 10 digits 0 < gridLimit := by
  rw [Option.isSome_iff_exists]
  constructor
  · rintro ⟨r, hr⟩
    obtain ⟨letters, digits, hs, h⟩ := ofChars?_eq_some_iff.1 hr
    refine ⟨letters, digits, hs, ⟨h.letters_ne_nil, h.isLetter, ?_⟩, h.digits_ne_nil,
      h.isDigit, ?_, ?_⟩
    · exact h.col ▸ h.col_lt
    · rw [h.row]
      exact Nat.succ_pos r.row
    · exact h.row ▸ h.row_lt
  · rintro ⟨letters, digits, hs, ⟨hne, hl, hcol⟩, hne', hd, hpos, hrow⟩
    have hcol' : 0 < numeralValue letters := numeralValue_pos hne
    refine ⟨⟨Nat.ofDigitChars 10 digits 0 - 1, numeralValue letters - 1⟩,
      ofChars?_eq_some_iff.2 ⟨letters, digits, hs, hne, hl, hne', hd, ?_, ?_, ?_, ?_⟩⟩
    all_goals
      simp only
      omega

theorem colon_not_mem_of_ofChars? {cs : List Char} {r : CellRef} (h : ofChars? cs = some r) :
    ':' ∉ cs := by
  obtain ⟨letters, digits, rfl, hs⟩ := ofChars?_eq_some_iff.1 h
  rw [List.mem_append]
  rintro (hc | hc)
  · exact absurd (hs.isLetter ':' hc) (by decide)
  · exact absurd (hs.isDigit ':' hc) (by decide)

end CellRef

namespace Range

/-! ## Ranges -/

/-- The four ways to name a range by two opposite corners. -/
def corners (r : Range) : List (CellRef × CellRef) :=
  [(r.first, r.last), (r.last, r.first),
    (⟨r.top, r.right⟩, ⟨r.bottom, r.left⟩), (⟨r.bottom, r.left⟩, ⟨r.top, r.right⟩)]

/-- The cells that span a range are opposite corners of it. -/
theorem mem_corners_iff {r : Range} {a b : CellRef} : (a, b) ∈ r.corners ↔ between a b = r := by
  constructor
  · intro h
    have htop := r.top_le_bottom
    have hleft := r.left_le_right
    simp only [corners, first, last, List.mem_cons, Prod.mk.injEq, List.not_mem_nil,
      or_false] at h
    obtain ⟨rfl, rfl⟩ | ⟨rfl, rfl⟩ | ⟨rfl, rfl⟩ | ⟨rfl, rfl⟩ := h <;>
      simp [between, htop, hleft]
  · rintro rfl
    -- Which corner a cell is depends on which of the two is above and which is on the left.
    rcases Nat.le_total a.row b.row with hrow | hrow <;>
      rcases Nat.le_total a.col b.col with hcol | hcol <;>
      simp [corners, between, first, last, hrow, hcol]

/-- Two cells around a colon spell the range between them. -/
theorem ofText?_colon {s t : String} {a b : CellRef} (ha : CellRef.ofText? s = some a)
    (hb : CellRef.ofText? t = some b) : ofText? (s ++ ":" ++ t) = some (between a b) := by
  have hcut : Text.cutAt ':' (s ++ ":" ++ t).toList = some (s.toList, t.toList) := by
    have hlist : (s ++ ":" ++ t).toList = s.toList ++ ':' :: t.toList := by simp
    rw [hlist, Text.cutAt_append (CellRef.colon_not_mem_of_ofChars? ha)]
  have ha' : CellRef.ofChars? s.toList = some a := ha
  have hb' : CellRef.ofChars? t.toList = some b := hb
  simp only [ofText?, ofChars?, hcut, ha', hb']

/-- The last cell of a range that is spelled has a notation. -/
theorem fits_last_of_ofText? {s : String} {r : Range} (h : ofText? s = some r) :
    r.last.Fits := by
  simp only [ofText?, ofChars?] at h
  split at h
  · split at h
    · rename_i a b ha hb
      cases h
      have ha := CellRef.fits_of_ofChars? ha
      have hb := CellRef.fits_of_ofChars? hb
      simp only [CellRef.Fits, last, between]
      omega
    · cases h
  · obtain ⟨c, hc, rfl⟩ := Option.map_eq_some_iff.1 h
    exact CellRef.fits_of_ofChars? hc

end Range

/-- The notation of cells and ranges is exact. A cell is read from letters followed by
    digits with values that fit, and from nothing else. What is written reads back, and what
    was read is written back in capitals and without zeros in front. So it is with ranges
    that do not reach the last row or the last column and whose cells can be counted, and any
    two opposite corners name the same one. -/
theorem spelling_codec :
    (∀ s : String, (CellRef.ofText? s).isSome = true ↔
      ∃ letters digits, s.toList = letters ++ digits ∧
        (letters ≠ [] ∧ (∀ c ∈ letters, Text.isLetter c = true) ∧
          Address.numeralValue letters < 2 ^ 64) ∧
        digits ≠ [] ∧ (∀ c ∈ digits, Text.isDigit c = true) ∧
          1 ≤ Nat.ofDigitChars 10 digits 0 ∧ Nat.ofDigitChars 10 digits 0 ≤ 2 ^ 64 - 1) ∧
    (∀ c : CellRef, c.col < 2 ^ 64 - 1 → c.row < 2 ^ 64 - 1 →
      CellRef.ofText? c.toText = some c) ∧
    (∀ (s : String) (c : CellRef), CellRef.ofText? s = some c →
      ∃ letters digits, s.toList = letters ++ digits ∧
        (∀ c ∈ letters, Text.isLetter c = true) ∧ (∀ c ∈ digits, Text.isDigit c = true) ∧
        c.toText.toList = letters.map Text.upper ++ digits.dropWhile (· == '0')) ∧
    (∀ r : Range, r.count < 2 ^ 64 → r.right < 2 ^ 64 - 1 → r.bottom < 2 ^ 64 - 1 →
      Range.ofText? r.toText = some r) ∧
    (∀ (s : String) (r : Range), Range.ofText? s = some r → r.count < 2 ^ 64 →
      Range.ofText? r.toText = some r) ∧
    (∀ (s t : String) (a b : CellRef), CellRef.ofText? s = some a → CellRef.ofText? t = some b →
      ∀ r : Range, Range.ofText? (s ++ ":" ++ t) = some r ↔ (a, b) ∈ r.corners) := by
  have hlimit : Address.gridLimit = 2 ^ 64 := rfl
  refine ⟨fun s => ?_, fun c hcol hrow => ?_, fun s c h => ?_, fun r hcount hcol hrow => ?_,
    fun s r h hcount => Range.ofText?_toText ⟨Range.fits_last_of_ofText? h, hlimit ▸ hcount⟩,
    fun s t a b ha hb r => ?_⟩
  · rw [CellRef.isSome_ofText?_iff, hlimit]
    simp only [Nat.le_sub_one_iff_lt (show 0 < 2 ^ 64 by decide)]
  · rw [CellRef.ofText?, CellRef.toText, String.toList_ofList]
    exact CellRef.ofChars?_toChars (by omega) (by omega)
  · obtain ⟨letters, digits, hs, hspells⟩ := CellRef.ofChars?_eq_some_iff.1 h
    refine ⟨letters, digits, hs, hspells.isLetter, hspells.isDigit, ?_⟩
    rw [CellRef.toText, String.toList_ofList, hspells.toChars_eq]
  · have hlast : r.last.Fits := ⟨by simp only [Range.last]; omega, by simp only [Range.last]; omega⟩
    exact Range.ofText?_toText ⟨hlast, hlimit ▸ hcount⟩
  · rw [Range.ofText?_colon ha hb, Option.some_inj, Range.mem_corners_iff]

/-- Lower case and a zero in front are read, and a range is named by any of its corners. -/
theorem spelling_codec_lower :
    (CellRef.ofText? "ab07" = some ⟨6, 27⟩ ∧ CellRef.ofText? "C2" = some ⟨1, 2⟩) ∧
    CellRef.ofText? (CellRef.toText ⟨6, 27⟩) = some ⟨6, 27⟩ ∧
    (∃ letters digits, "ab07".toList = letters ++ digits ∧
      (∀ c ∈ letters, Text.isLetter c = true) ∧ (∀ c ∈ digits, Text.isDigit c = true) ∧
      (CellRef.toText ⟨6, 27⟩).toList = letters.map Text.upper ++ digits.dropWhile (· == '0')) ∧
    Range.ofText? (Range.between ⟨6, 27⟩ ⟨1, 2⟩).toText = some (.between ⟨6, 27⟩ ⟨1, 2⟩) ∧
    Range.ofText? ("ab07" ++ ":" ++ "C2") = some (.between ⟨6, 27⟩ ⟨1, 2⟩) := by
  have hread : CellRef.ofText? "ab07" = some ⟨6, 27⟩ := by decide
  have hread' : CellRef.ofText? "C2" = some ⟨1, 2⟩ := by decide
  obtain ⟨-, hcell, hcanonical, hrange, -, hcorners⟩ := spelling_codec
  refine ⟨⟨hread, hread'⟩, hcell _ (by decide) (by decide), hcanonical _ _ hread,
    hrange _ (by decide) (by decide) (by decide), ?_⟩
  exact (hcorners _ _ _ _ hread hread' _).2 (Range.mem_corners_iff.2 rfl)

/-- The last row of the grid has no number. A cell there is written with a zero, and that
    is not read. A square with sides of 2 ^ 32 is read, but its cells are counted as none
    and it is written as its first cell. -/
theorem spelling_codec_last_index :
    let corner := Range.single ⟨Address.gridLimit - 1, 0⟩
    let square := Range.spanning .origin (2 ^ 32 - 1) (2 ^ 32 - 1)
    (corner.count = 1 ∧ corner.toText = "A0" ∧ Range.ofText? corner.toText = none) ∧
      Range.ofText? "A1:MWLQKWV4294967296" = some square ∧ square.toText = "A1" ∧
        Range.ofText? square.toText ≠ some square := by
  decide +kernel

end Worksheet
