import Worksheet.Proofs.Number.Whole
import Worksheet.Proofs.Rows.Tiling

/-!
# The Entries of a Series

What a series of whole numbers is continued with.

The number of a text is what stands at its end, digits and points as far as they go. A
whole number is read from its digits, advanced and written again without rounding, so the
text in front of it is followed by the digits of the sum. That text is not looked at. In
particular a minus sign is no part of the number, and what is advanced is the
number behind it: the entries of a series that begins with a negative number go away from
zero where those of any other series go up.

## Main definitions

* `seriesEntry`: The text of an entry a number of steps behind the first one.

## Theorems

* `splitTail_append`: Where the number of a text begins.
* `seriesText_append`: A whole number at the end of a text is advanced.
* `seriesText_toString`: The entries of a series that begins with an integer.
-/

namespace Worksheet

/-- The text at a number of steps behind an integer. The digits behind a minus sign are
    advanced, and the sign stays in front of them. -/
def seriesEntry (z steps : Int) : String :=
  if 0 ≤ z then toString (z + steps) else "-" ++ toString (steps - z)

/-- The number of a text begins behind the last character that is no digit and no point. -/
theorem splitTail_append {front tail : List Char}
    (hfront : ∀ c ∈ front.getLast?, c ≠ '.' ∧ Text.isDecimal c = false)
    (htail : ∀ c ∈ tail, c = '.' ∨ Text.isDecimal c = true) :
    splitTail (front ++ tail) = (front, tail) := by
  have hinside : ∀ c ∈ tail.reverse, (c == '.' || Text.isDecimal c) = true := by
    simpa using htail
  have hstop : front.reverse.takeWhile (fun c => c == '.' || Text.isDecimal c) = [] ∧
      front.reverse.dropWhile (fun c => c == '.' || Text.isDecimal c) = front.reverse := by
    rcases List.eq_nil_or_concat front with rfl | ⟨cs, d, rfl⟩
    · exact ⟨rfl, rfl⟩
    · obtain ⟨hpoint, hdecimal⟩ := hfront d (by simp)
      simp [hpoint, hdecimal]
  simp only [splitTail, List.reverse_append, List.takeWhile_append_of_pos hinside,
    List.dropWhile_append_of_pos hinside, hstop, List.append_nil, List.reverse_reverse]

/-- A whole number at the end of a text is advanced, and the text in front of it stays. -/
theorem seriesText_append {front : List Char}
    (hfront : ∀ c ∈ front.getLast?, c ≠ '.' ∧ Text.isDecimal c = false) {n : Nat} {steps : Int}
    (hn : n < 2 ^ 53) (hsteps : steps.natAbs < 2 ^ 53) (hsum : (n + steps).natAbs < 2 ^ 53) :
    seriesText steps (String.ofList (front ++ Nat.toDigits 10 n)) =
      String.ofList (front ++ (toString (n + steps)).toList) := by
  have htail : ∀ c ∈ Nat.toDigits 10 n, c = '.' ∨ Text.isDecimal c = true := fun c hc =>
    .inr (Text.isDecimal_of_isDigit (Text.isDigit_of_mem_toDigits hc))
  have hnumber : Number.IsWhole (Number.Literal.toFloat ⟨false, n, 0⟩) n :=
    Number.isWhole_nearest hn
  have hsum := hnumber.add (Number.isWhole_ofInt hsteps) hsum
  simp only [seriesText, String.toList_ofList, splitTail_append hfront htail,
    Number.read?_toDigits, hsum.toText_eq]

example : seriesText 2 "Item 3" = "Item 5" := by decide

/-- The entries of a series that begins with an integer. -/
theorem seriesText_toString {z steps : Int} (hz : z.natAbs < 2 ^ 53)
    (hsteps : steps.natAbs < 2 ^ 53) (hsum : (z.natAbs + steps).natAbs < 2 ^ 53) :
    seriesText steps (toString z) = seriesEntry z steps := by
  rw [← String.ofList_toList (s := toString z), Text.toList_toString,
    seriesText_append ?_ hz hsteps hsum]
  · unfold seriesEntry
    by_cases hneg : z < 0
    · have habs : (z.natAbs : Int) + steps = steps - z := by omega
      rw [if_pos hneg, if_neg (Int.not_le.2 hneg), habs]
      apply String.toList_inj.1
      rw [String.toList_ofList, String.toList_append]
      rfl
    · have habs : (z.natAbs : Int) + steps = z + steps := by omega
      rw [if_neg hneg, if_pos (Int.not_lt.1 hneg), habs, List.nil_append, String.ofList_toList]
  · intro c hc
    split at hc
    · cases hc
      decide
    · cases hc

end Worksheet
