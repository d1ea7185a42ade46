import Mathlib.Data.List.Nodup
import Worksheet.Proofs.Rows.Editing
import Worksheet.Proofs.Rows.Transfer

/-!
# A Block That Is Moved

That moving a block moves its cells and does nothing else.

The cells of the block are taken out of the store before the first of them is put at its
new place, so it makes no difference whether the two places overlap. A place that a cell
arrives at has that cell. The other places of the block are empty afterwards, and wherever
else no cell arrives everything is as it was.

Putting a cell into a row stores the row if it was not stored, so the rows that are stored
may become more. What a row is like apart from its cells does not change by that, since a
row that is not stored is like one that was never touched.

All this needs a column after the block, before which the block is cut off. There is none
after the last column of the grid, and a block that reaches it is left where it is.

## Main definitions

* `Row.bare`, `Rows.bareRow`: What a row is like apart from its cells.
* `Arrives`: Does a cell of the block arrive at a place?
* `landing`: The cells that the block is moved onto.
* `Movable`: Blocks that can be cut off, and whose cells stay on the grid.

## Theorems

* `bareRow_moveBlock`: Rows apart from their cells stay as they are.
* `cell?_moveBlock_of_not_arrives`: Places at which no cell arrives.
* `perm_cells_moveBlock`: No cell is lost and none is doubled.
* `moveBlock_moves`: What a move does, place by place.
* `moveBlock_moves_last`: A block that is left where it is.
-/

namespace Worksheet

/-- A row apart from its cells: its height, whether it is hidden, and its style. -/
def Row.bare (r : Row) : Row := { r with cells := .empty }

namespace Rows

/-- What a row is like apart from its cells. -/
def bareRow (s : Rows) (i : Nat) : Row := ((s.row? i).getD {}).bare

/-- Does a stored cell of a block arrive at a place when the block is moved? -/
def Arrives (s : Rows) (src dst : Range) (c : CellRef) : Prop :=
  ∃ c', src.mem c' = true ∧ (s.cell? c').isSome = true ∧ movedTo src dst c' = c

/-- The cells that a block is moved onto. -/
def landing (src dst : Range) : Range :=
  .spanning dst.first (src.height - 1) (src.width - 1)

/-- Is there a column after the block, and does each stored cell of it stay on the grid when
    it is moved? -/
structure Movable (s : Rows) (src dst : Range) : Prop where
  right : src.right + 1 < Address.gridLimit
  landing : ∀ w ∈ s.cellsIn src, (movedTo src dst w.1).row < Address.gridLimit ∧
    (movedTo src dst w.1).col < Address.gridLimit

instance (s : Rows) (src dst : Range) : Decidable (s.Movable src dst) :=
  decidable_of_iff (src.right + 1 < Address.gridLimit ∧
      ∀ w ∈ s.cellsIn src, (movedTo src dst w.1).row < Address.gridLimit ∧
        (movedTo src dst w.1).col < Address.gridLimit)
    ⟨fun h => ⟨h.1, h.2⟩, fun h => ⟨h.right, h.landing⟩⟩

variable {s : Rows} {src dst : Range} {c : CellRef}

/-! ## Rows apart from their cells -/

theorem row?_editRow (s : Rows) (i j : Nat) (edit : Row → Row) :
    (s.editRow i edit).row? j = if j = i then some (edit ((s.row? i).getD {})) else s.row? j :=
  SparseMap.get?_update s.rows i j _

theorem bareRow_updateCell (s : Rows) (c : CellRef) (edit : Option Cell → Cell) (i : Nat) :
    (s.updateCell c edit).bareRow i = s.bareRow i := by
  unfold bareRow updateCell
  rw [row?_editRow]
  split
  · rename_i hi
    rw [hi]
    rfl
  · rfl

theorem bareRow_removeCells (s : Rows) (r : Range) (i : Nat) :
    (s.removeCells r).bareRow i = s.bareRow i := by
  unfold bareRow row? removeCells
  rw [SparseMap.get?_mapValues]
  cases s.rows.get? i with
  | none => rfl
  | some row =>
    rw [Option.map_some, Option.getD_some, Option.getD_some]
    split <;> rfl

/-- A move changes cells, and nothing else about rows. -/
theorem bareRow_moveBlock (s : Rows) (src dst : Range) (i : Nat) :
    (s.moveBlock src dst).bareRow i = s.bareRow i ∧ (s.moveBlock src dst).len = s.len := by
  by_cases hright : src.right + 1 = Address.gridLimit
  · rw [moveBlock_of_last hright]
    exact ⟨rfl, rfl⟩
  rw [moveBlock_of_not_last hright]
  refine List.foldlRecOn _ _ (motive := fun t : Rows => t.bareRow i = s.bareRow i ∧ t.len = s.len)
    ⟨bareRow_removeCells s src i, rfl⟩ fun t ht w _ => ?_
  exact ⟨(bareRow_updateCell t _ _ i).trans ht.1, ht.2⟩

/-! ## Cells -/

theorem arrives_iff : Arrives s src dst c ↔ ∃ w ∈ s.cellsIn src, movedTo src dst w.1 = c := by
  constructor
  · rintro ⟨c', hmem, hstored, hc⟩
    obtain ⟨cell, hcell⟩ := Option.isSome_iff_exists.1 hstored
    exact ⟨(c', cell), mem_cellsIn_iff.2 ⟨hcell, hmem⟩, hc⟩
  · rintro ⟨⟨c', cell⟩, hw, hc⟩
    obtain ⟨hcell, hmem⟩ := mem_cellsIn_iff.1 hw
    exact ⟨c', hmem, Option.isSome_iff_exists.2 ⟨cell, hcell⟩, hc⟩

instance decidableArrives : Decidable (Arrives s src dst c) := decidable_of_iff _ arrives_iff.symm

theorem mem_landing_iff : (landing src dst).mem c = true ↔
    ∃ c', src.mem c' = true ∧ movedTo src dst c' = c := by
  have htop := src.top_le_bottom
  have hleft := src.left_le_right
  simp only [landing, Range.mem_iff, Range.spanning, Range.first, Range.height, Range.width]
  constructor
  · intro h
    refine ⟨⟨src.top + (c.row - dst.top), src.left + (c.col - dst.left)⟩, by dsimp only; omega, ?_⟩
    obtain ⟨row, col⟩ := c
    simp only [movedTo, CellRef.mk.injEq] at *
    omega
  · rintro ⟨c', hmem, rfl⟩
    simp only [movedTo]
    omega

/-- A place at which no cell arrives is empty if it is part of the block, and keeps what it
    has otherwise. -/
theorem cell?_moveBlock_of_not_arrives (hright : src.right + 1 ≠ Address.gridLimit)
    (h : ¬Arrives s src dst c) :
    (s.moveBlock src dst).cell? c = if src.mem c then none else s.cell? c :=
  cell?_moveBlock_of_not_mem hright fun c' cell hcell hmem hc =>
    h ⟨c', hmem, Option.isSome_iff_exists.2 ⟨cell, hcell⟩, hc⟩

/-- A cell is stored once. -/
theorem nodup_cells (s : Rows) : s.cells.Nodup :=
  (pairwise_places s.rows.sorted fun r => r.cells.sorted).imp fun hne heq =>
    hne (congrArg Prod.fst heq)

/-- Which cells are stored after a move: those that were moved, and those beside the block
    at whose places none of them arrives. -/
theorem cell?_moveBlock_eq_some_iff (hright : src.right + 1 ≠ Address.gridLimit) {cell : Cell} :
    (s.moveBlock src dst).cell? c = some cell ↔
      (∃ c', s.cell? c' = some cell ∧ src.mem c' = true ∧ movedTo src dst c' = c) ∨
        s.cell? c = some cell ∧ src.mem c = false ∧ ¬Arrives s src dst c := by
  by_cases h : Arrives s src dst c
  · obtain ⟨c', hmem, hstored, rfl⟩ := h
    obtain ⟨cell', hcell'⟩ := Option.isSome_iff_exists.1 hstored
    rw [cell?_moveBlock_of_mem hright hcell' hmem]
    constructor
    · rintro heq
      exact .inl ⟨c', hcell'.trans heq, hmem, rfl⟩
    · rintro (⟨c'', hcell, hmem', heq⟩ | ⟨-, -, hnot⟩)
      · rw [← hcell', ← movedTo_inj hmem' hmem heq, hcell]
      · exact absurd ⟨c', hmem, hstored, rfl⟩ hnot
  · rw [cell?_moveBlock_of_not_arrives hright h]
    constructor
    · intro hcell
      split at hcell
      · cases hcell
      · rename_i hmem
        exact .inr ⟨hcell, Bool.not_eq_true _ ▸ hmem, h⟩
    · rintro (⟨c', hcell, hmem, heq⟩ | ⟨hcell, hmem, -⟩)
      · exact absurd ⟨c', hmem, Option.isSome_iff_exists.2 ⟨cell, hcell⟩, heq⟩ h
      · rw [if_neg (Bool.eq_false_iff.1 hmem), hcell]

/-- No cell is lost by a move and none is doubled: stored afterwards are the cells of the
    block at their new places, and those beside it at whose places none of them arrives. -/
theorem perm_cells_moveBlock (s : Rows) (hright : src.right + 1 ≠ Address.gridLimit) :
    (s.moveBlock src dst).cells.Perm
      ((s.cells.filter fun w => src.mem w.1).map (fun w => (movedTo src dst w.1, w.2)) ++
        s.cells.filter fun w => !src.mem w.1 && !decide (Arrives s src dst w.1)) := by
  have hmoved : ((s.cells.filter fun w => src.mem w.1).map
      fun w => (movedTo src dst w.1, w.2)).Nodup := by
    refine List.Nodup.map_on (fun w hw w' hw' heq => ?_) (s.nodup_cells.filter _)
    rw [Prod.mk.injEq] at heq
    exact Prod.ext (movedTo_inj (List.mem_filter.1 hw).2 (List.mem_filter.1 hw').2 heq.1) heq.2
  -- No list has an entry twice, so it is enough that the same cells are in both.
  refine (List.perm_ext_iff_of_nodup (nodup_cells _)
    (List.nodup_append'.2 ⟨hmoved, s.nodup_cells.filter _, ?_⟩)).2 ?_
  · rintro w hw hkept
    obtain ⟨⟨c', cell⟩, hw', rfl⟩ := List.mem_map.1 hw
    obtain ⟨hcell, hmem⟩ := List.mem_filter.1 hw'
    have harrives : Arrives s src dst (movedTo src dst c') :=
      ⟨c', hmem, Option.isSome_iff_exists.2 ⟨cell, mem_cells_iff.1 hcell⟩, rfl⟩
    simp [harrives] at hkept
  · rintro ⟨c, cell⟩
    rw [mem_cells_iff, cell?_moveBlock_eq_some_iff hright, List.mem_append, List.mem_map,
      List.mem_filter]
    refine or_congr ?_ ?_
    · simp only [List.mem_filter, Prod.exists, mem_cells_iff, Prod.mk.injEq]
      constructor
      · rintro ⟨c', hcell, hmem, hc⟩
        exact ⟨c', cell, ⟨hcell, hmem⟩, hc, rfl⟩
      · rintro ⟨c', _, ⟨hcell, hmem⟩, hc, rfl⟩
        exact ⟨c', hcell, hmem, hc⟩
    · simp only [mem_cells_iff, Bool.and_eq_true, Bool.not_eq_true', decide_eq_false_iff_not]

/-- A move on the grid is a pure one. Every stored cell of the block is stored as it is at
    the place it is moved to. The other places of the block are empty, and every other place
    at which no cell arrives, on the cells that the block is moved onto or beside them, keeps
    what it has. Rows keep their heights, their styles and whether they are hidden, and no
    cell is lost or doubled. -/
theorem moveBlock_moves (s : Rows) (h : s.Movable src dst) :
    (∀ c cell, src.mem c = true → s.cell? c = some cell →
      (landing src dst).mem (movedTo src dst c) = true ∧
        (s.moveBlock src dst).cell? (movedTo src dst c) = some cell) ∧
    (∀ c, src.mem c = true → ¬Arrives s src dst c → (s.moveBlock src dst).cell? c = none) ∧
    (∀ c, (landing src dst).mem c = true → src.mem c = false → ¬Arrives s src dst c →
      (s.moveBlock src dst).cell? c = s.cell? c) ∧
    (∀ c, (landing src dst).mem c = false → src.mem c = false →
      (s.moveBlock src dst).cell? c = s.cell? c) ∧
    (∀ i, (s.moveBlock src dst).bareRow i = s.bareRow i) ∧
    (s.moveBlock src dst).len = s.len ∧
    (s.moveBlock src dst).cells.Perm
      ((s.cells.filter fun w => src.mem w.1).map (fun w => (movedTo src dst w.1, w.2)) ++
        s.cells.filter fun w => !src.mem w.1 && !decide (Arrives s src dst w.1)) := by
  have hright : src.right + 1 ≠ Address.gridLimit := Nat.ne_of_lt h.right
  have hkept {c : CellRef} (hmem : src.mem c = false) (h : ¬Arrives s src dst c) :
      (s.moveBlock src dst).cell? c = s.cell? c := by
    rw [cell?_moveBlock_of_not_arrives hright h, if_neg (Bool.eq_false_iff.1 hmem)]
  refine ⟨fun c cell hmem hcell => ⟨mem_landing_iff.2 ⟨c, hmem, rfl⟩,
    cell?_moveBlock_of_mem hright hcell hmem⟩, fun c hmem h => ?_, fun c _ hmem h => hkept hmem h,
    fun c hland hmem => hkept hmem fun ⟨c', hmem', _, hc⟩ => ?_,
    fun i => (bareRow_moveBlock s src dst i).1, (bareRow_moveBlock s src dst 0).2,
    perm_cells_moveBlock s hright⟩
  · rw [cell?_moveBlock_of_not_arrives hright h, if_pos hmem]
  · exact absurd (mem_landing_iff.2 ⟨c', hmem', hc⟩) (Bool.eq_false_iff.1 hland)

/-- Two rows are moved down by one, onto the second of them. -/
theorem moveBlock_moves_overlapping :
    let src : Range := .between .origin ⟨1, 0⟩
    let dst : Range := .between ⟨1, 0⟩ ⟨2, 0⟩
    let s := Rows.single "1"
    (s.Movable src dst ∧ src.mem .origin = true ∧
      s.cell? .origin = some { text := some "1" } ∧ ¬Arrives s src dst .origin) ∧
    (s.moveBlock src dst).cell? ⟨1, 0⟩ = some { text := some "1" } ∧
      (s.moveBlock src dst).cell? .origin = none := by
  intro src dst s
  have hmovable : s.Movable src dst := by decide
  have hmem : src.mem .origin = true := by decide
  have hcell : s.cell? .origin = some { text := some "1" } := by decide
  have hnone : ¬Arrives s src dst .origin := by decide
  obtain ⟨hmoved, hempty, -⟩ := moveBlock_moves s hmovable
  exact ⟨⟨hmovable, hmem, hcell, hnone⟩, (hmoved _ _ hmem hcell).2, hempty _ hmem hnone⟩

/-- A cell of the last column stays where it is, and nothing arrives. -/
theorem moveBlock_moves_last :
    let c : CellRef := ⟨0, Address.gridLimit - 1⟩
    let s := ({ len := 1 } : Rows).setText c "x"
    (Range.single c).mem c = true ∧ s.cell? c = some { text := some "x" } ∧
      (s.moveBlock (.single c) (.single .origin)).cell? (movedTo (.single c) (.single .origin) c) ≠
        some { text := some "x" } := by
  decide

end Rows

end Worksheet
