/-!
# Indices

The numbers that rows and columns are counted with.

An index has sixty-four bits. Two things follow that a formula or a merge can
show. The index after the last one is zero. And a number of lines to move by is
read as a signed number of the same width, so from two to the sixty-third on it
moves the other way. Both are definitions here, and whoever needs the plain
successor or the plain number says which bound makes them the same.

Other sums and products of indices are those of natural numbers. A sheet on which
one of them passes the last index has left the grid, and statements that could not
bear it ask for the grid.

## Main definitions

* `gridLimit`: The first index the grid does not have.
* `next`: The index after an index.
* `signed`: A number as signed sixty-four bits have it.
* `clamp`: The index nearest to a number.
* `reach`: The first number of lines that is not read as itself.
-/

namespace Worksheet

namespace Address

/-- Two to the sixty-fourth: indices, counts and the numbers of rows and columns
    stay below it. -/
def gridLimit : Nat := UInt64.size

/-- Two to the sixty-third: numbers of lines below it are read as they are. -/
def reach : Nat := UInt64.size / 2

/-- The index after an index. The last one is followed by zero. -/
def next (i : Nat) : Nat :=
  if i + 1 = gridLimit then 0 else i + 1

/-- A number as signed sixty-four bits have it. -/
def signed (i : Int) : Int :=
  i.bmod gridLimit

/-- The index nearest to a number. -/
def clamp (i : Int) : Nat :=
  min i.toNat (gridLimit - 1)

theorem next_of_ne {i : Nat} (h : i + 1 ≠ gridLimit) : next i = i + 1 := if_neg h

theorem next_of_lt {i : Nat} (h : i + 1 < gridLimit) : next i = i + 1 := next_of_ne (Nat.ne_of_lt h)

theorem next_eq_zero_iff {i : Nat} : next i = 0 ↔ i + 1 = gridLimit := by
  unfold next
  split <;> simp_all

/-- No two indices are followed by the same one. -/
theorem next_injective {i j : Nat} (h : next i = next j) : i = j := by
  unfold next at h
  split at h <;> split at h <;> omega

/-- A number of the signed range is read as itself. -/
theorem signed_of_bounds {i : Int} (hlo : -reach ≤ i) (hhi : i < reach) : signed i = i := by
  refine Int.bmod_eq_of_le ?_ ?_ <;> simp only [gridLimit, reach, UInt64.size] at * <;> omega

theorem signed_natCast {n : Nat} (h : n < reach) : signed n = n :=
  signed_of_bounds (by omega) (by omega)

theorem signed_neg_natCast {n : Nat} (h : n < reach) : signed (-(n : Int)) = -n :=
  signed_of_bounds (by omega) (by simp only [reach, UInt64.size]; omega)

/-- A number that is an index is the index nearest to it. -/
theorem clamp_of_lt {i : Int} (hlo : 0 ≤ i) (hhi : i < gridLimit) : (clamp i : Int) = i := by
  unfold clamp
  generalize gridLimit = limit at *
  omega

theorem clamp_natCast {i : Nat} (h : i < gridLimit) : clamp i = i :=
  Int.ofNat_inj.1 (clamp_of_lt (Int.natCast_nonneg i) (Int.ofNat_lt.2 h))

end Address

end Worksheet
