import Worksheet.Address.Range

/-!
# Rectangles

Ranges as sets of cells.

Whether a cell is in a range, whether two ranges meet and whether one lies in
another are comparisons of edges. They are brought into that form here once,
so that whatever is said about the position of ranges is linear arithmetic.

## Theorems

* `length_cells`: A range lists as many cells as it counts.
* `count_pos`: There is at least one of them.
* `mem_cells`: A listed cell lies between the edges.
* `nodup_cells`: No cell is listed twice.
* `mem_iff`, `intersects_iff`, `within_iff`: Positions as comparisons of edges.
* `isMultiple_iff`: More than one cell means more than one row or column.
* `one_lt_tally_iff`: When the count of cells tells whether there are several.
* `eq_spanning`: A range is given by its first cell and what it spans.
-/

namespace Worksheet

namespace Range

/-- A range lists as many cells as it counts. -/
theorem length_cells (r : Range) : r.cells.length = r.count := by
  simp [Range.cells, Range.count, List.map_const']

theorem height_pos (r : Range) : 0 < r.height := Nat.succ_pos _

theorem width_pos (r : Range) : 0 < r.width := Nat.succ_pos _

/-- A range has at least one cell. -/
theorem count_pos (r : Range) : 0 < r.count :=
  Nat.mul_pos r.height_pos r.width_pos

/-- The cells are counted right if sixty-four bits hold their number. -/
theorem tally_of_lt {r : Range} (h : r.count < Address.gridLimit) : r.tally = r.count :=
  Nat.mod_eq_of_lt h

/-- A listed cell lies between the edges. -/
theorem mem_cells {r : Range} {c : CellRef} (h : c ∈ r.cells) :
    r.top ≤ c.row ∧ c.row ≤ r.bottom ∧ r.left ≤ c.col ∧ c.col ≤ r.right := by
  have := r.top_le_bottom
  have := r.left_le_right
  simp only [Range.cells, List.mem_flatMap, List.mem_range'_1, List.mem_map, Range.height,
    Range.width] at h
  rcases h with ⟨row, hrow, col, hcol, rfl⟩
  simp only
  omega

theorem mem_iff {r : Range} {c : CellRef} :
    r.mem c = true ↔ r.top ≤ c.row ∧ c.row ≤ r.bottom ∧ r.left ≤ c.col ∧ c.col ≤ r.right := by
  simp [mem, and_assoc]

theorem mem_cells_iff {r : Range} {c : CellRef} : c ∈ r.cells ↔ r.mem c = true := by
  rw [mem_iff]
  refine ⟨mem_cells, fun h => ?_⟩
  simp only [cells, List.mem_flatMap, List.mem_range'_1, List.mem_map, height, width]
  exact ⟨c.row, by omega, c.col, by omega, rfl⟩

theorem mem_single_iff {c c' : CellRef} : (single c).mem c' = true ↔ c' = c := by
  obtain ⟨row, col⟩ := c
  obtain ⟨row', col'⟩ := c'
  rw [mem_iff, CellRef.mk.injEq]
  show row ≤ row' ∧ row' ≤ row ∧ col ≤ col' ∧ col' ≤ col ↔ row' = row ∧ col' = col
  omega

/-- A range lists no cell twice. -/
theorem nodup_cells (r : Range) : r.cells.Nodup := by
  refine List.pairwise_flatMap.2 ⟨fun row _ => ?_, ?_⟩
  · exact List.pairwise_map.2 ((List.nodup_range' 1).imp fun hne heq =>
      hne (congrArg CellRef.col heq))
  · refine (List.nodup_range' 1).imp fun {row row'} hne a ha b hb heq => hne ?_
    obtain ⟨col, -, rfl⟩ := List.mem_map.1 ha
    obtain ⟨col', -, rfl⟩ := List.mem_map.1 hb
    exact congrArg CellRef.row heq

theorem intersects_iff {a b : Range} : a.intersects b = true ↔
    a.top ≤ b.bottom ∧ b.top ≤ a.bottom ∧ a.left ≤ b.right ∧ b.left ≤ a.right := by
  simp [intersects, and_assoc]

theorem intersects_comm (a b : Range) : a.intersects b = b.intersects a := by
  rw [Bool.eq_iff_iff, intersects_iff, intersects_iff]
  omega

theorem within_iff {a b : Range} : a.within b = true ↔
    b.top ≤ a.top ∧ a.bottom ≤ b.bottom ∧ b.left ≤ a.left ∧ a.right ≤ b.right := by
  simp [within, and_assoc]

theorem within_refl (r : Range) : r.within r = true := by
  simp [within_iff]

theorem within_trans {a b c : Range} (hab : a.within b = true) (hbc : b.within c = true) :
    a.within c = true := by
  rw [within_iff] at *
  omega

theorem intersects_self (r : Range) : r.intersects r = true := by
  have := r.top_le_bottom
  have := r.left_le_right
  rw [intersects_iff]
  omega

/-- A range that lies in another one meets whatever meets it. -/
theorem intersects_of_within {a b r : Range} (h : a.within b = true)
    (hr : a.intersects r = true) : b.intersects r = true := by
  rw [within_iff] at h
  rw [intersects_iff] at hr ⊢
  omega

/-- Ranges with a cell in common meet. -/
theorem intersects_of_mem {a b : Range} {c : CellRef} (ha : a.mem c = true) (hb : b.mem c = true) :
    a.intersects b = true := by
  rw [mem_iff] at ha hb
  rw [intersects_iff]
  omega

theorem mem_of_within {a b : Range} {c : CellRef} (h : a.within b = true) (hc : a.mem c = true) :
    b.mem c = true := by
  rw [within_iff] at h
  rw [mem_iff] at hc ⊢
  omega

theorem mem_first (r : Range) : r.mem r.first = true := by
  have := r.top_le_bottom
  have := r.left_le_right
  simp only [mem_iff, first]
  omega

theorem isMultiple_iff {r : Range} :
    r.isMultiple = true ↔ r.top < r.bottom ∨ r.left < r.right := by
  have hcount : r.isMultiple = true ↔ 1 < r.height * r.width := decide_eq_true_iff
  rw [hcount]
  constructor
  · intro h
    rcases Nat.lt_or_ge r.top r.bottom with hrows | hrows
    · exact .inl hrows
    · rcases Nat.lt_or_ge r.left r.right with hcols | hcols
      · exact .inr hcols
      · have hheight : r.height = 1 := by unfold height; omega
        have hwidth : r.width = 1 := by unfold width; omega
        rw [hheight, hwidth] at h
        omega
  · rintro (h | h)
    · exact Nat.lt_of_lt_of_le (show 1 < r.height by unfold height; omega)
        (Nat.le_mul_of_pos_right _ r.width_pos)
    · exact Nat.lt_of_lt_of_le (show 1 < r.width by unfold width; omega)
        (Nat.le_mul_of_pos_left _ r.height_pos)

/-- Several cells are counted if there are several, when they are counted right. -/
theorem one_lt_tally_iff {r : Range} (h : r.count < Address.gridLimit) :
    1 < r.tally ↔ r.isMultiple = true := by
  rw [tally_of_lt h, isMultiple, decide_eq_true_eq]

/-- A range that lies in another one has no more cells. -/
theorem count_le_of_within {a b : Range} (h : a.within b = true) : a.count ≤ b.count := by
  have hedges := within_iff.1 h
  refine Nat.mul_le_mul ?_ ?_
  · unfold height
    omega
  · unfold width
    omega

theorem eq_iff {a b : Range} : a = b ↔
    a.top = b.top ∧ a.left = b.left ∧ a.bottom = b.bottom ∧ a.right = b.right := by
  cases a
  cases b
  simp

@[simp] theorem first_spanning (c : CellRef) (rows cols : Nat) :
    (spanning c rows cols).first = c := rfl

/-- A range is given by its first cell and what it spans beyond it. -/
theorem eq_spanning (r : Range) : r = spanning r.first (r.height - 1) (r.width - 1) := by
  have := r.top_le_bottom
  have := r.left_le_right
  simp only [eq_iff, spanning, first, height, width, true_and]
  omega

end Range

end Worksheet
