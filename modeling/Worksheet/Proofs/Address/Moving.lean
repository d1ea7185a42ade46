import Worksheet.Proofs.Address.Rectangle

/-!
# Moved Ranges

Ranges that are moved by a displacement, edge by edge.

A range is moved by moving its two corners, and both have to stay on the grid.
Since the corners are in order, that is one condition on each side, and the
four edges of the moved range are those of the range plus the displacement.
Ranges that are moved alike meet where they met before.

## Theorems

* `Range.move?_eq_some_iff`: When a range can be moved, and where it goes.
* `Range.intersects_move`: Ranges that are moved alike meet where they met.
-/

namespace Worksheet

namespace Address

theorem moveIndex?_eq_some_iff {i j : Nat} {d : Int} :
    moveIndex? i d = some j ↔ (j : Int) = i + d ∧ j < gridLimit := by
  unfold moveIndex?
  generalize gridLimit = limit
  simp only
  split
  · rw [Option.some.injEq]
    omega
  · refine ⟨nofun, fun h => ?_⟩
    omega

end Address

open Address

theorem CellRef.move?_eq_some_iff {c c' : CellRef} {d : Displacement} : c.move? d = some c' ↔
    ((c'.row : Int) = c.row + d.rows ∧ c'.row < gridLimit) ∧
      (c'.col : Int) = c.col + d.cols ∧ c'.col < gridLimit := by
  obtain ⟨row', col'⟩ := c'
  unfold CellRef.move?
  simp only [← moveIndex?_eq_some_iff]
  split
  · rename_i col row hcol hrow
    simp [hcol, hrow]
  · rename_i hnone
    refine ⟨nofun, fun h => absurd h.1 fun hrow => hnone _ _ h.2 hrow⟩

namespace Range

/-- A range can be moved when its far corner stays on the grid and its near one
    does too, and then each edge is moved. -/
theorem move?_eq_some_iff {r r' : Range} {d : Displacement} : r.move? d = some r' ↔
    ((r'.top : Int) = r.top + d.rows ∧ (r'.bottom : Int) = r.bottom + d.rows ∧
      r'.bottom < gridLimit) ∧
    (r'.left : Int) = r.left + d.cols ∧ (r'.right : Int) = r.right + d.cols ∧
      r'.right < gridLimit := by
  have htop := r.top_le_bottom
  have hleft := r.left_le_right
  have htop' := r'.top_le_bottom
  have hleft' := r'.left_le_right
  unfold move?
  split
  · rename_i a b ha hb
    rw [CellRef.move?_eq_some_iff] at ha hb
    simp only [first, last] at ha hb
    rw [Option.some.injEq, eq_iff]
    simp only [between]
    generalize gridLimit = limit at *
    omega
  · rename_i hnone
    constructor
    · intro h
      cases h
    · intro h
      -- The corners of the moved range show that both corners could be moved.
      refine absurd ?_ (hnone r'.first r'.last · ?_)
      · rw [CellRef.move?_eq_some_iff]
        simp only [first]
        generalize gridLimit = limit at *
        omega
      · rw [CellRef.move?_eq_some_iff]
        simp only [last]
        generalize gridLimit = limit at *
        omega

variable {a a' b b' : Range} {d : Displacement}

/-- Ranges that are moved alike meet where they met before. -/
theorem intersects_move (ha : a.move? d = some a') (hb : b.move? d = some b') :
    a'.intersects b' = a.intersects b := by
  rw [move?_eq_some_iff] at ha hb
  rw [Bool.eq_iff_iff, intersects_iff, intersects_iff]
  omega

theorem isMultiple_move (ha : a.move? d = some a') : a'.isMultiple = a.isMultiple := by
  rw [move?_eq_some_iff] at ha
  rw [Bool.eq_iff_iff, isMultiple_iff, isMultiple_iff]
  omega

end Range

end Worksheet
