import Worksheet.Number.Shortest

/-!
# The Digits of a Double

When the shortest digits of a double are a zero.

The decimals that name a positive double make up an interval whose lower end
is positive as well, so zero is never picked out of it, and taking zeros off
the end of a decimal does not make it zero either. The digits are a zero only
where the double is one, and then no power of ten goes with them.

## Theorems

* `Interval.ne_zero_of_pick?`: A decimal that names a positive double is not zero.
* `shortest_ne_zero`: A zero is written without a power of ten.
-/

namespace Worksheet

namespace Number

theorem Interval.low_ofParts {mantissa : Nat} (h : mantissa ≠ 0) (exponent : Int) :
    0 < (Interval.ofParts mantissa exponent).low := by
  have hup : 0 < Nat.pow 2 exponent.toNat := Nat.pow_pos (by decide)
  have hfour : 2 < 4 * mantissa := by omega
  simp only [Interval.ofParts]
  split
  · rw [Nat.one_mul]
    have := Nat.mul_lt_mul_of_pos_right (show 1 < 4 * mantissa by omega) hup
    omega
  · have := Nat.mul_lt_mul_of_pos_right hfour hup
    omega

theorem Interval.low_scale {i : Interval} (h : 0 < i.low) (unit : Int) :
    0 < (i.scale unit).low := by
  unfold Interval.scale
  split
  · exact h
  · exact Nat.mul_pos h (Nat.pow_pos (by decide))

/-- A decimal that names a positive double is not zero. -/
theorem Interval.ne_zero_of_pick? {tie : Tie} {i : Interval} {n : Nat} (hlow : 0 < i.low)
    (h : i.pick? tie = some n) : n ≠ 0 := by
  -- Zero is below the interval, so it is only ever passed over.
  have hzero : ∀ below, (i.low < below * i.denominator ||
      (i.closed && i.low == below * i.denominator)) = true → below ≠ 0 := by
    rintro below hin rfl
    simp [Nat.ne_of_gt hlow] at hin
  simp only [Interval.pick?] at h
  split at h
  · rename_i hboth
    rw [Bool.and_eq_true] at hboth
    have := hzero _ hboth.1
    split at h
    · cases h
      exact this
    · cases h
      exact Nat.succ_ne_zero _
  · split at h
    · rename_i hbelow
      cases h
      exact hzero _ hbelow
    · split at h
      · cases h
        exact Nat.succ_ne_zero _
      · cases h

theorem dropZeros_ne_zero {fuel digits : Nat} {power : Int} (h : digits ≠ 0) :
    (dropZeros fuel digits power).1 ≠ 0 := by
  induction fuel generalizing digits power with
  | zero => exact h
  | succ fuel ih =>
    rw [dropZeros]
    split
    · rename_i hzero
      simp only [Bool.and_eq_true, decide_eq_true_eq] at hzero
      exact ih (by omega)
    · exact h

theorem shortestFrom_ne_zero {tie : Tie} {i : Interval} {lead : Int} {left count : Nat}
    (hlow : 0 < i.low) : (shortestFrom tie i lead left count).1 ≠ 0 ∨
      (shortestFrom tie i lead left count).2 = 0 := by
  induction left generalizing count with
  | zero => exact .inr rfl
  | succ left ih =>
    simp only [shortestFrom]
    split
    · rename_i digits hpick
      exact .inl (dropZeros_ne_zero (Interval.ne_zero_of_pick? (Interval.low_scale hlow _) hpick))
    · exact ih

/-- A zero is written without a power of ten. -/
theorem shortest_ne_zero (tie : Tie) (mantissa : Nat) (exponent : Int) :
    (shortest tie mantissa exponent).1 ≠ 0 ∨ (shortest tie mantissa exponent).2 = 0 := by
  unfold shortest
  split
  · exact .inr rfl
  · rename_i h
    exact shortestFrom_ne_zero (Interval.low_ofParts h exponent)

end Number
end Worksheet
