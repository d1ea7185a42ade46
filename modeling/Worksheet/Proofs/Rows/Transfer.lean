import Worksheet.Proofs.Grid
import Worksheet.Proofs.Rows.Marks

/-!
# Cells After a Copy or a Move

What is stored at a place after a block was copied or moved.

Both transfers read all cells first and then write them one by one. A place is
written for one cell of the source only: the cell of the source and the tile
can be told from the place, by dividing. So the order of writing does not
matter, and what is stored at a place afterwards depends on what was written
there, if something was.

## Main definitions

* `Copied`: A cell of the source, the tile it is copied to, and its copy.
* `sourceOf`: The cell of the source that belongs to a place.
* `Copyable`: Blocks and destinations that indices are enough for.

## Theorems

* `mem_cellsIn_iff`: The stored cells of a range.
* `mem_copies_iff`: What a copy writes, and where.
* `Copied.tile_eq`, `Copied.sourceOf_eq`: The tile and the cell of a copy, told from its place.
* `Copied.eq_of_target_eq`: Only one copy is written at a place.
* `Copyable.sameHalf`: Copies are made as far away as they seem to be.
* `cell?_copyBlock_of_mem`, `cell?_copyBlock_of_not_mem`: Cells after a copy.
* `cell?_moveBlock_of_mem`, `cell?_moveBlock_of_not_mem`: Cells after a move.
* `footprint_of_le`, `Copied.target_eq`: Copies that are not repeated.
-/

namespace Worksheet

namespace Rows

/-! ## Writing at many places -/

section

variable {α : Type} (place : α → CellRef) (edit : α → Option Cell → Cell)

theorem cell?_foldl_updateCell_of_ne {as : List α} {s : Rows} {c : CellRef}
    (hc : ∀ a ∈ as, place a ≠ c) :
    (as.foldl (fun s a => s.updateCell (place a) (edit a)) s).cell? c = s.cell? c := by
  induction as generalizing s with
  | nil => rfl
  | cons a as ih =>
    rw [List.foldl_cons, ih fun b hb => hc b (List.mem_cons_of_mem _ hb), cell?_updateCell,
      if_neg (Ne.symm (hc a List.mem_cons_self))]

/-- Of several writes the one of a cell is seen there, although it may be repeated. -/
theorem cell?_foldl_updateCell_of_mem {as : List α} {s : Rows} {a : α} (ha : a ∈ as)
    (hplace : ∀ b ∈ as, place b = place a → b = a)
    (hedit : ∀ cell, edit a (some (edit a cell)) = edit a cell) :
    (as.foldl (fun s a => s.updateCell (place a) (edit a)) s).cell? (place a) =
      some (edit a (s.cell? (place a))) := by
  -- The induction is on the writes still to come. One that is repeated later writes the
  -- same again, which is why writing twice must not matter.
  induction as generalizing s with
  | nil => cases ha
  | cons b as ih =>
    rw [List.foldl_cons]
    have hplace' : ∀ b' ∈ as, place b' = place a → b' = a := fun b' hb' =>
      hplace b' (List.mem_cons_of_mem _ hb')
    by_cases hlater : a ∈ as
    · rw [ih hlater hplace', cell?_updateCell]
      split
      · rename_i hab
        rw [hplace b List.mem_cons_self hab.symm, hedit]
      · rfl
    · have hab : b = a := by
        rcases List.mem_cons.1 ha with rfl | h
        · rfl
        · exact absurd h hlater
      subst hab
      rw [cell?_foldl_updateCell_of_ne place edit, cell?_updateCell, if_pos rfl]
      rintro b' hb' heq
      exact hlater (hplace' b' hb' heq ▸ hb')

end

/-! ## The cells of a range -/

theorem mem_entriesBetween_iff {α : Type} {m : SparseMap α} {lo hi k : Nat} {v : α} :
    (k, v) ∈ m.entriesBetween lo hi ↔ m.get? k = some v ∧ lo ≤ k ∧ k ≤ hi := by
  rw [SparseMap.entriesBetween, List.mem_filter, SparseMap.get?_eq_some_iff]
  simp

theorem mem_cellsIn_iff {s : Rows} {r : Range} {c : CellRef} {cell : Cell} :
    (c, cell) ∈ s.cellsIn r ↔ s.cell? c = some cell ∧ r.mem c = true := by
  obtain ⟨i, j⟩ := c
  simp only [cellsIn, List.mem_flatMap, List.mem_map, Prod.exists, Prod.mk.injEq,
    CellRef.mk.injEq, mem_entriesBetween_iff, cell?, row?, Range.mem_iff]
  constructor
  · rintro ⟨i', row, ⟨hrow, hrows⟩, j', cell', ⟨hcell, hcols⟩, ⟨rfl, rfl⟩, rfl⟩
    simp only [hrow]
    exact ⟨hcell, hrows.1, hrows.2, hcols.1, hcols.2⟩
  · rintro ⟨hcell, htop, hbottom, hleft, hright⟩
    cases hrow : s.rows.get? i with
    | none =>
      rw [hrow] at hcell
      cases hcell
    | some row =>
      rw [hrow] at hcell
      exact ⟨i, row, ⟨hrow, htop, hbottom⟩, j, cell, ⟨hcell, hleft, hright⟩, ⟨rfl, rfl⟩, rfl⟩

/-- The store keeps its rows, and each row its cells, in increasing order. -/
theorem pairwise_places {rows : List (Nat × Row)} (hrows : rows.Pairwise fun a b => a.1 < b.1)
    {f : Row → List (Nat × Cell)} (hf : ∀ r, (f r).Pairwise fun a b => a.1 < b.1) :
    (rows.flatMap fun e => (f e.2).map fun g => ((⟨e.1, g.1⟩ : CellRef), g.2)).Pairwise
      fun a b => a.1 ≠ b.1 := by
  refine List.pairwise_flatMap.2 ⟨fun e _ => ?_, ?_⟩
  · refine List.pairwise_map.2 ((hf e.2).imp fun hlt heq => ?_)
    exact absurd (congrArg CellRef.col heq) (Nat.ne_of_lt hlt)
  · refine hrows.imp fun hlt a ha b hb heq => ?_
    obtain ⟨_, _, rfl⟩ := List.mem_map.1 ha
    obtain ⟨_, _, rfl⟩ := List.mem_map.1 hb
    exact absurd (congrArg CellRef.row heq) (Nat.ne_of_lt hlt)

theorem pairwise_cellsIn (s : Rows) (r : Range) :
    (s.cellsIn r).Pairwise fun a b => a.1 ≠ b.1 :=
  pairwise_places (s.rows.sorted.filter _) fun row => row.cells.sorted.filter _

theorem get?_eraseBetween {α : Type} (m : SparseMap α) (lo hi k : Nat) :
    (m.eraseBetween lo hi).get? k = if lo ≤ k ∧ k ≤ hi then none else m.get? k := by
  apply Option.ext
  intro v
  rw [SparseMap.get?_eq_some_iff, SparseMap.eraseBetween, List.mem_filter]
  split
  · simp
    omega
  · rw [SparseMap.get?_eq_some_iff]
    simp
    omega

theorem cell?_removeCells (s : Rows) (r : Range) (c : CellRef) :
    (s.removeCells r).cell? c = if r.mem c then none else s.cell? c := by
  simp only [cell?, row?, removeCells, SparseMap.get?_mapValues, Range.mem_iff]
  cases s.rows.get? c.row with
  | none => simp
  | some row =>
    simp only [Option.map_some]
    by_cases hrow : r.top ≤ c.row ∧ c.row ≤ r.bottom
    · rw [if_pos hrow, get?_eraseBetween]
      simp only [hrow, true_and]
    · rw [if_neg hrow, if_neg fun h => hrow ⟨h.1, h.2.1⟩]

/-! ## Copies -/

/-- A cell of the source and its copy in the tile that begins so many heights below
    and widths beside the first cell of the destination. -/
structure Copied (s : Rows) (src dst : Range) (series : Bool) (w : CellRef × Cell) where
  c : CellRef
  cell : Cell
  down : Nat
  across : Nat
  cell_eq : s.cell? c = some cell
  mem : src.mem c = true
  down_le : down ≤ (dst.bottom - dst.top) / src.height
  across_le : across ≤ (dst.right - dst.left) / src.width
  target : w.1 = ⟨dst.top + down * src.height + (c.row - src.top),
    dst.left + across * src.width + (c.col - src.left)⟩
  copy : w.2 = copyOf src dst series c w.1 cell

/-- The cell of the source whose copy belongs at a place. -/
def sourceOf (src dst : Range) (c : CellRef) : CellRef :=
  ⟨src.top + (c.row - dst.top) % src.height, src.left + (c.col - dst.left) % src.width⟩

theorem mem_tileStarts_iff {first last size i : Nat} :
    i ∈ tileStarts first last size ↔ ∃ k ≤ (last - first) / size, first + k * size = i := by
  simp only [tileStarts, List.mem_map, List.mem_range, Nat.lt_succ_iff]

/-- What is written for one cell of the source. -/
theorem exists_copied {s : Rows} {src dst : Range} {series : Bool} {e w : CellRef × Cell}
    (he : e ∈ s.cellsIn src)
    (hw : w ∈ (tileStarts dst.top dst.bottom src.height).flatMap fun top =>
      (tileStarts dst.left dst.right src.width).map fun left =>
        ((⟨top + (e.1.row - src.top), left + (e.1.col - src.left)⟩ : CellRef),
          copyOf src dst series e.1 ⟨top + (e.1.row - src.top), left + (e.1.col - src.left)⟩ e.2)) :
    ∃ x : Copied s src dst series w, x.c = e.1 := by
  obtain ⟨hcell, hmem⟩ := mem_cellsIn_iff.1 he
  simp only [List.mem_flatMap, List.mem_map, mem_tileStarts_iff] at hw
  obtain ⟨_, ⟨down, hdown, rfl⟩, _, ⟨across, hacross, rfl⟩, rfl⟩ := hw
  exact ⟨⟨e.1, e.2, down, across, hcell, hmem, hdown, hacross, rfl, rfl⟩, rfl⟩

theorem mem_copies_iff {s : Rows} {src dst : Range} {series : Bool} {w : CellRef × Cell} :
    w ∈ s.copies src dst series ↔ Nonempty (Copied s src dst series w) := by
  rw [copies, List.mem_flatMap]
  constructor
  · rintro ⟨e, he, hw⟩
    obtain ⟨x, -⟩ := exists_copied he hw
    exact ⟨x⟩
  · rintro ⟨⟨c, cell, down, across, hcell, hmem, hdown, hacross, htarget, hcopy⟩⟩
    refine ⟨(c, cell), mem_cellsIn_iff.2 ⟨hcell, hmem⟩, ?_⟩
    simp only [List.mem_flatMap, List.mem_map, mem_tileStarts_iff]
    refine ⟨_, ⟨down, hdown, rfl⟩, _, ⟨across, hacross, rfl⟩, ?_⟩
    rw [← htarget, ← hcopy]

/-- A number below the size, added to a multiple of it, is told from it by dividing. -/
theorem mul_add_div_of_lt {size a i : Nat} (hi : i < size) : (a * size + i) / size = a := by
  rw [Nat.add_comm, Nat.add_mul_div_right _ _ (Nat.zero_lt_of_lt hi), Nat.div_eq_of_lt hi,
    Nat.zero_add]

namespace Copied

variable {s : Rows} {src dst : Range} {series : Bool} {w w' : CellRef × Cell}

theorem offset_lt (x : Copied s src dst series w) :
    x.c.row - src.top < src.height ∧ x.c.col - src.left < src.width := by
  have := Range.mem_iff.1 x.mem
  unfold Range.height Range.width
  omega

/-- How far a copy is from the first cell of the destination. -/
theorem distance (x : Copied s src dst series w) :
    (dst.top ≤ w.1.row ∧ w.1.row - dst.top = x.down * src.height + (x.c.row - src.top)) ∧
      dst.left ≤ w.1.col ∧ w.1.col - dst.left = x.across * src.width + (x.c.col - src.left) := by
  rw [x.target]
  dsimp only
  omega

/-- The tile can be told from the place. -/
theorem tile_eq (x : Copied s src dst series w) :
    (w.1.row - dst.top) / src.height = x.down ∧ (w.1.col - dst.left) / src.width = x.across := by
  rw [x.distance.1.2, x.distance.2.2]
  exact ⟨mul_add_div_of_lt x.offset_lt.1, mul_add_div_of_lt x.offset_lt.2⟩

/-- So can the cell. -/
theorem sourceOf_eq (x : Copied s src dst series w) : sourceOf src dst w.1 = x.c := by
  have hmem := Range.mem_iff.1 x.mem
  rw [sourceOf, x.distance.1.2, x.distance.2.2, Nat.mul_add_mod_self_right,
    Nat.mul_add_mod_self_right, Nat.mod_eq_of_lt x.offset_lt.1, Nat.mod_eq_of_lt x.offset_lt.2,
    Nat.add_sub_cancel' hmem.1, Nat.add_sub_cancel' hmem.2.2.1]

/-- Only one copy is written at a place. -/
theorem eq_of_target_eq (x : Copied s src dst series w) (y : Copied s src dst series w')
    (h : w.1 = w'.1) : w = w' := by
  have hc : x.c = y.c := by rw [← x.sourceOf_eq, h, y.sourceOf_eq]
  have hcell : x.cell = y.cell := by
    have := x.cell_eq
    rw [hc, y.cell_eq] at this
    exact (Option.some.inj this).symm
  refine Prod.ext h ?_
  rw [x.copy, y.copy, hc, hcell, h]

/-- A copy has the mark of the cell it was made of. -/
theorem mark_eq (x : Copied s src dst series w) {span : Span} (h : w.2.merge = some span) :
    s.mark x.c = some span := by
  rw [mark, x.cell_eq, Option.bind_some, ← h, x.copy]
  rfl

end Copied

/-- Can the lines of a block be counted, and is each stored cell of it on the same half of
    the grid as its copies? -/
structure Copyable (s : Rows) (src dst : Range) : Prop where
  height : src.height < Address.gridLimit
  width : src.width < Address.gridLimit
  near : ∀ w ∈ s.copies src dst false, (sourceOf src dst w.1).SameHalf w.1

instance (s : Rows) (src dst : Range) : Decidable (s.Copyable src dst) :=
  decidable_of_iff (src.height < Address.gridLimit ∧ src.width < Address.gridLimit ∧
      ∀ w ∈ s.copies src dst false, (sourceOf src dst w.1).SameHalf w.1)
    ⟨fun h => ⟨h.1, h.2.1, h.2.2⟩, fun h => ⟨h.height, h.width, h.near⟩⟩

/-- Whether a series is continued makes no difference to the places of the copies. -/
theorem Copyable.sameHalf {s : Rows} {src dst : Range} {series : Bool} {w : CellRef × Cell}
    (h : s.Copyable src dst) (x : Copied s src dst series w) : x.c.SameHalf w.1 := by
  have y : Copied s src dst false (w.1, copyOf src dst false x.c w.1 x.cell) :=
    { x with copy := rfl }
  have hnear := h.near _ (mem_copies_iff.2 ⟨y⟩)
  rwa [← x.sourceOf_eq]

theorem pairwise_tileStarts {first last size : Nat} (hsize : 0 < size) :
    (tileStarts first last size).Pairwise fun i j => i ≠ j := by
  refine List.pairwise_map.2 (List.pairwise_lt_range.imp fun hlt heq => ?_)
  have := Nat.mul_lt_mul_of_pos_right hlt hsize
  omega

/-- No two copies are written at one place. -/
theorem pairwise_copies (s : Rows) (src dst : Range) (series : Bool) :
    (s.copies src dst series).Pairwise fun w w' => w.1 ≠ w'.1 := by
  refine List.pairwise_flatMap.2 ⟨fun e _ => ?_, ?_⟩
  · -- Copies of one cell are in different tiles.
    refine List.pairwise_flatMap.2 ⟨fun top _ => ?_, ?_⟩
    · refine List.pairwise_map.2 ((pairwise_tileStarts src.width_pos).imp fun hne heq => hne ?_)
      exact Nat.add_right_cancel (congrArg CellRef.col heq)
    · refine (pairwise_tileStarts src.height_pos).imp fun hne w hw w' hw' heq => hne ?_
      obtain ⟨_, _, rfl⟩ := List.mem_map.1 hw
      obtain ⟨_, _, rfl⟩ := List.mem_map.1 hw'
      exact Nat.add_right_cancel (congrArg CellRef.row heq)
  · refine (pairwise_cellsIn s src).imp_of_mem fun {e e'} he he' hne w hw w' hw' heq => hne ?_
    obtain ⟨x, hx⟩ := exists_copied he hw
    obtain ⟨y, hy⟩ := exists_copied he' hw'
    rw [← hx, ← hy, ← x.sourceOf_eq, heq, y.sourceOf_eq]

theorem receive_receive (mode : CopyMode) (source : Cell) (here : Option Cell) :
    source.receive mode (some (source.receive mode here)) = source.receive mode here := by
  cases mode with
  | all => rfl
  | text => rfl
  | format =>
    simp only [Cell.receive, Option.getD_some]
    cases source.merge <;> simp

theorem cell?_copyBlock_of_mem {s : Rows} {src dst : Range} {mode : CopyMode} {series : Bool}
    {w : CellRef × Cell} (hw : w ∈ s.copies src dst series) :
    (s.copyBlock src dst mode series).1.cell? w.1 = some (w.2.receive mode (s.cell? w.1)) := by
  refine cell?_foldl_updateCell_of_mem Prod.fst (fun w => w.2.receive mode) hw
    (fun b hb heq => ?_) fun cell => receive_receive mode w.2 cell
  obtain ⟨x⟩ := mem_copies_iff.1 hb
  obtain ⟨y⟩ := mem_copies_iff.1 hw
  exact x.eq_of_target_eq y heq

theorem cell?_copyBlock_of_not_mem {s : Rows} {src dst : Range} {mode : CopyMode} {series : Bool}
    {c : CellRef} (hc : ∀ w ∈ s.copies src dst series, w.1 ≠ c) :
    (s.copyBlock src dst mode series).1.cell? c = s.cell? c :=
  cell?_foldl_updateCell_of_ne Prod.fst (fun w : CellRef × Cell => w.2.receive mode) hc

/-! ## Moves -/

/-- Where a cell goes when a block is moved. -/
def movedTo (src dst : Range) (c : CellRef) : CellRef :=
  ⟨dst.top + (c.row - src.top), dst.left + (c.col - src.left)⟩

theorem movedTo_inj {src dst : Range} {c c' : CellRef} (hc : src.mem c = true)
    (hc' : src.mem c' = true) (h : movedTo src dst c = movedTo src dst c') : c = c' := by
  rw [Range.mem_iff] at hc hc'
  obtain ⟨row, col⟩ := c
  obtain ⟨row', col'⟩ := c'
  simp only [movedTo, CellRef.mk.injEq] at *
  omega

/-- Nothing is moved out of a block that reaches the last column. -/
theorem moveBlock_of_last {s : Rows} {src dst : Range} (h : src.right + 1 = Address.gridLimit) :
    s.moveBlock src dst = s :=
  if_pos (Address.next_eq_zero_iff.2 h)

/-- Of any other block, the cells are taken out and put at their new places. -/
theorem moveBlock_of_not_last {s : Rows} {src dst : Range}
    (h : src.right + 1 ≠ Address.gridLimit) : s.moveBlock src dst =
      (s.cellsIn src).foldl (fun s w => s.updateCell (movedTo src dst w.1) fun _ => w.2)
        (s.removeCells src) :=
  if_neg (mt Address.next_eq_zero_iff.1 h)

theorem cell?_moveBlock_of_mem {s : Rows} {src dst : Range} {c : CellRef} {cell : Cell}
    (hright : src.right + 1 ≠ Address.gridLimit) (hcell : s.cell? c = some cell)
    (hc : src.mem c = true) : (s.moveBlock src dst).cell? (movedTo src dst c) = some cell := by
  have hmem : (c, cell) ∈ s.cellsIn src := mem_cellsIn_iff.2 ⟨hcell, hc⟩
  rw [moveBlock_of_not_last hright]
  refine cell?_foldl_updateCell_of_mem (fun w => movedTo src dst w.1) (fun w _ => w.2)
    hmem (fun b hb heq => ?_) fun _ => rfl
  obtain ⟨hb, hbmem⟩ := mem_cellsIn_iff.1 hb
  have hc' : b.1 = c := movedTo_inj hbmem hc heq
  rw [hc', hcell] at hb
  exact Prod.ext hc' (Option.some.inj hb).symm

theorem cell?_moveBlock_of_not_mem {s : Rows} {src dst : Range} {c : CellRef}
    (hright : src.right + 1 ≠ Address.gridLimit)
    (hc : ∀ c' cell, s.cell? c' = some cell → src.mem c' = true → movedTo src dst c' ≠ c) :
    (s.moveBlock src dst).cell? c = if src.mem c then none else s.cell? c := by
  rw [moveBlock_of_not_last hright, ← cell?_removeCells]
  exact cell?_foldl_updateCell_of_ne (fun w : CellRef × Cell => movedTo src dst w.1)
    (fun w _ => w.2) fun w hw => hc w.1 w.2 (mem_cellsIn_iff.1 hw).1 (mem_cellsIn_iff.1 hw).2

/-! ## Copies into one tile -/

end Rows

/-- A destination that is no larger than the source takes one copy of it. -/
theorem footprint_of_le {src dst : Range} (hheight : dst.height ≤ src.height)
    (hwidth : dst.width ≤ src.width) :
    footprint src dst = .spanning dst.first (src.height - 1) (src.width - 1) := by
  have hround {n size : Nat} (hn : 0 < n) (hle : n ≤ size) : roundUp n size = size := by
    have hone : (n + size - 1) / size = 1 := Nat.div_eq_of_lt_le (by omega) (by omega)
    rw [roundUp, hone, Nat.one_mul]
  have hpos : 0 < dst.height ∧ 0 < dst.width := ⟨Nat.succ_pos _, Nat.succ_pos _⟩
  rw [footprint, hround hpos.1 hheight, hround hpos.2 hwidth]

namespace Rows

section

variable {s : Rows} {src dst : Range} {series : Bool}

/-- The one copy of a cell is written where the cell would be moved to. -/
theorem Copied.target_eq {w : CellRef × Cell} (x : Copied s src dst series w)
    (hheight : dst.height ≤ src.height) (hwidth : dst.width ≤ src.width) :
    w.1 = movedTo src dst x.c := by
  have hdown := x.down_le
  have hacross := x.across_le
  rw [Nat.div_eq_of_lt (Nat.lt_of_succ_le hheight), Nat.le_zero] at hdown
  rw [Nat.div_eq_of_lt (Nat.lt_of_succ_le hwidth), Nat.le_zero] at hacross
  rw [x.target, hdown, hacross, Nat.zero_mul, Nat.zero_mul]
  rfl

/-- A cell of the source is copied there. -/
theorem mem_copies_movedTo {c : CellRef} {cell : Cell} (hcell : s.cell? c = some cell)
    (hc : src.mem c = true) :
    (movedTo src dst c, copyOf src dst series c (movedTo src dst c) cell) ∈
      s.copies src dst series := by
  refine mem_copies_iff.2 ⟨⟨c, cell, 0, 0, hcell, hc, Nat.zero_le _, Nat.zero_le _, ?_, rfl⟩⟩
  rw [Nat.zero_mul, Nat.zero_mul]
  rfl

theorem mem_footprint_movedTo (hheight : dst.height ≤ src.height) (hwidth : dst.width ≤ src.width)
    {c : CellRef} (hc : src.mem c = true) :
    (footprint src dst).mem (movedTo src dst c) = true := by
  rw [footprint_of_le hheight hwidth]
  simp only [Range.mem_iff, Range.spanning, Range.first, Range.height, Range.width,
    movedTo] at hc ⊢
  omega

end

end Rows

end Worksheet
