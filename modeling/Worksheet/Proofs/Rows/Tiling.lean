import Worksheet.Proofs.Address.Moving
import Worksheet.Proofs.Rows.Editing
import Worksheet.Proofs.Rows.Transfer

/-!
# A Block That Is Laid in Tiles

What a copy leaves at every place of the sheet.

Whole copies of the source are laid side by side, so the place of a copy gives away the
cell that it is a copy of: the distance from the first cell of the destination, divided by
the size of the source, has the tile as its quotient and the place within the tile as its
remainder. The footprint is rounded up to whole tiles, and a place belongs to it exactly
when the quotient is one of a tile that is needed. So a place is written when it is part
of the footprint and something is stored at the cell of the source that belongs to it, and
it is written once.

What is written is the cell as it was before any of it was written, with its text as the
only thing that is changed. Words of a formula that have the shape of a reference are
replaced by the cell a displacement away. This is a matter of the shape: a cell in a column
of more than three letters does not have it, although a formula can refer to it.

## Main definitions

* `Tiles`: Whole copies of a block, as many as are needed to cover a destination.
* `MovesBy`: Words that name a cell are replaced by the cell a displacement away.
* `Advances`: The number at the end of a text is advanced.
* `IsCopy`: What is the same in a cell and its copy, and what is not.

## Theorems

* `tiles_footprint`: The footprint consists of whole tiles, and of no more than needed.
* `footprint_eq_iff`: When the tiles fit into the destination.
* `Rows.mem_copies_iff_sourceOf`: What is written at a place.
* `isCopy_copyOf`: What is written is a copy.
* `Rows.copyBlock_footprint`: What a copy does, place by place.
* `Rows.copyBlock_wide`: References that are not moved.
-/

namespace Worksheet

variable {src dst : Range} {c : CellRef}

/-! ## Whole tiles -/

/-- Do whole copies of a block, laid side by side from the first cell of a destination on,
    make up a range that covers the destination, and are all of them needed for it? -/
structure Tiles (src dst f : Range) : Prop where
  first : f.first = dst.first
  covers : dst.within f = true
  rows : ∃ k, f.height = (k + 1) * src.height ∧ k * src.height < dst.height
  cols : ∃ k, f.width = (k + 1) * src.width ∧ k * src.width < dst.width

theorem roundUp_eq {n size : Nat} (hsize : 0 < size) :
    roundUp (n + 1) size = (n / size + 1) * size := by
  have : n + 1 + size - 1 = n + size := by omega
  rw [roundUp, this, Nat.add_div_right n hsize]

/-- The lines below a number that is rounded up are those of its tiles. -/
theorem lt_roundUp_iff {n size i : Nat} (hsize : 0 < size) :
    i < roundUp (n + 1) size ↔ i / size ≤ n / size := by
  rw [roundUp_eq hsize, ← Nat.div_lt_iff_lt_mul hsize, Nat.lt_succ_iff]

theorem roundUp_pos {n size : Nat} (hsize : 0 < size) : 0 < roundUp (n + 1) size := by
  rw [lt_roundUp_iff hsize, Nat.zero_div]
  exact Nat.zero_le _

/-- A place belongs to the footprint when it belongs to a tile that is needed. -/
theorem mem_footprint_iff : (footprint src dst).mem c = true ↔
    (dst.top ≤ c.row ∧ (c.row - dst.top) / src.height ≤ (dst.bottom - dst.top) / src.height) ∧
      dst.left ≤ c.col ∧ (c.col - dst.left) / src.width ≤ (dst.right - dst.left) / src.width := by
  have hrow : c.row - dst.top < roundUp dst.height src.height ↔ _ := lt_roundUp_iff src.height_pos
  have hcol : c.col - dst.left < roundUp dst.width src.width ↔ _ := lt_roundUp_iff src.width_pos
  have hrows : 0 < roundUp dst.height src.height := roundUp_pos src.height_pos
  have hcols : 0 < roundUp dst.width src.width := roundUp_pos src.width_pos
  rw [← hrow, ← hcol, Range.mem_iff]
  simp only [footprint, Range.spanning, Range.first]
  omega

/-- The footprint consists of whole tiles, and of no more than are needed. -/
theorem tiles_footprint (src dst : Range) : Tiles src dst (footprint src dst) := by
  have hheight : roundUp dst.height src.height =
      ((dst.bottom - dst.top) / src.height + 1) * src.height := roundUp_eq src.height_pos
  have hwidth : roundUp dst.width src.width =
      ((dst.right - dst.left) / src.width + 1) * src.width := roundUp_eq src.width_pos
  have hrows : 0 < roundUp dst.height src.height := roundUp_pos src.height_pos
  have hcols : 0 < roundUp dst.width src.width := roundUp_pos src.width_pos
  refine ⟨rfl, ?_, ⟨_, Eq.trans ?_ hheight, ?_⟩, _, Eq.trans ?_ hwidth, ?_⟩
  · have hbottom : dst.bottom - dst.top < roundUp dst.height src.height :=
      (lt_roundUp_iff src.height_pos).2 (Nat.le_refl _)
    have hright : dst.right - dst.left < roundUp dst.width src.width :=
      (lt_roundUp_iff src.width_pos).2 (Nat.le_refl _)
    simp only [Range.within_iff, footprint, Range.spanning, Range.first]
    omega
  · simp only [footprint, Range.spanning, Range.first, Range.height] at hrows ⊢
    omega
  · exact Nat.lt_succ_of_le (Nat.div_mul_le_self _ _)
  · simp only [footprint, Range.spanning, Range.first, Range.width] at hcols ⊢
    omega
  · exact Nat.lt_succ_of_le (Nat.div_mul_le_self _ _)

theorem roundUp_eq_self_iff {n size : Nat} (hsize : 0 < size) :
    roundUp (n + 1) size = n + 1 ↔ size ∣ n + 1 := by
  rw [roundUp_eq hsize]
  constructor
  · exact fun h => ⟨n / size + 1, by rw [Nat.mul_comm, h]⟩
  · intro h
    rw [← Nat.succ_div_of_dvd h, Nat.div_mul_cancel h]

/-- The tiles fit into the destination when its size is a multiple of theirs. -/
theorem footprint_eq_iff : footprint src dst = dst ↔
    src.height ∣ dst.height ∧ src.width ∣ dst.width := by
  have hheight : roundUp dst.height src.height = dst.height ↔ src.height ∣ dst.height :=
    roundUp_eq_self_iff src.height_pos
  have hwidth : roundUp dst.width src.width = dst.width ↔ src.width ∣ dst.width :=
    roundUp_eq_self_iff src.width_pos
  have hrows : 0 < roundUp dst.height src.height := roundUp_pos src.height_pos
  have hcols : 0 < roundUp dst.width src.width := roundUp_pos src.width_pos
  have hspan : dst.bottom + 1 = dst.top + dst.height ∧ dst.right + 1 = dst.left + dst.width := by
    have htop := dst.top_le_bottom
    have hleft := dst.left_le_right
    unfold Range.height Range.width
    omega
  rw [← hheight, ← hwidth, Range.eq_iff]
  simp only [footprint, Range.spanning, Range.first, true_and]
  omega

/-! ## Copies of a cell -/

/-- Is a word that names a cell replaced by the name of the cell a displacement away, or
    by the mark of a lost reference if that is not on the grid? Other words stay. The cells
    of the last row and the last column have no name, and nothing is said about them. -/
structure MovesBy (d : Displacement) (f : List Char → List Char) : Prop where
  moved : ∀ w c c', CellRef.ofChars? w = some c → c.offsetTo c' = d → c'.Fits → f w = c'.toChars
  lost : ∀ w c, CellRef.ofChars? w = some c →
    (∀ c', c.offsetTo c' = d → Address.gridLimit ≤ c'.row ∨ Address.gridLimit ≤ c'.col) →
    f w = Address.lostReference
  other : ∀ w, CellRef.ofChars? w = none → f w = w

theorem movesBy_shift (d : Displacement) : MovesBy d (Address.shift d fun _ => true) where
  moved w c c' hw hd hfits := by
    have hmove : c.move? d = some c' :=
      hd ▸ CellRef.move?_offsetTo (Nat.lt_of_succ_lt hfits.1) (Nat.lt_of_succ_lt hfits.2)
    simp only [Address.shift, hw, hmove, if_true]
  lost w c hw hout := by
    have hmove : c.move? d = none := by
      refine Option.eq_none_iff_forall_not_mem.2 fun c' hc' => ?_
      obtain ⟨⟨hrow, hlastRow⟩, hcol, hlastCol⟩ := CellRef.move?_eq_some_iff.1 hc'
      have := hout c' (CellRef.offsetTo_eq_iff.2 ⟨hrow, hcol⟩)
      omega
    simp only [Address.shift, hw, hmove, if_true]
  other w hw := by simp only [Address.shift, hw]

/-- Is a text another one with the number at its end advanced? The number is what can be
    read from the digits and points at the end, taken as far as they go. -/
def Advances (delta : Int) (text text' : String) : Prop :=
  ∃ front tail, text.toList = front ++ tail ∧
    (∀ c ∈ tail, c = '.' ∨ Text.isDecimal c = true) ∧
    (∀ c ∈ front.getLast?, c ≠ '.' ∧ Text.isDecimal c = false) ∧
    (Number.Literal.read? tail = none → text' = text) ∧
    ∀ l, Number.Literal.read? tail = some l →
      text' = String.ofList (front ++ (Number.toText (l.toFloat + Float.ofInt delta)).toList)

theorem advances_seriesText (delta : Int) (text : String) :
    Advances delta text (seriesText delta text) := by
  refine ⟨(splitTail text.toList).1, (splitTail text.toList).2, ?_, fun c hc => ?_,
    fun c hc => ?_, fun hread => ?_, fun l hread => ?_⟩
  · rw [splitTail, ← List.reverse_append, List.takeWhile_append_dropWhile, List.reverse_reverse]
  · have := List.all_eq_true.1 (List.all_takeWhile ..) c (List.mem_reverse.1 hc)
    simpa using this
  · rw [splitTail, List.getLast?_reverse] at hc
    have hfront := List.head?_dropWhile_not (fun c => c == '.' || Text.isDecimal c)
      text.toList.reverse
    rw [Option.mem_def.1 hc] at hfront
    simpa using hfront
  · unfold seriesText
    simp only [hread]
  · unfold seriesText
    simp only [hread]

/-- How far the number of a text is advanced when a cell is copied a displacement away. A
    series goes down when the destination is above or below the source, and across
    otherwise. -/
def seriesStep? (src dst : Range) (series : Bool) (d : Displacement) : Option Int :=
  if series && continuesSeries src dst then
    some (if dst.isVerticalFrom src then d.rows else d.cols)
  else none

/-- Is a cell the copy of another one, made a displacement away? Only the text may differ:
    the references of a formula are moved, and the number of other text is advanced if a
    series is continued. -/
structure IsCopy (step : Option Int) (d : Displacement) (cell copy : Cell) : Prop where
  rest : copy = { cell with text := copy.text }
  empty : cell.text = none → copy.text = none
  formula : ∀ text ∈ cell.text, isFormulaText text = true → ∃ f, MovesBy d f ∧
    copy.text = some (String.ofList (Address.mapReferences f text.toList))
  advanced : ∀ text ∈ cell.text, isFormulaText text = false → ∀ delta ∈ step,
    ∃ text', copy.text = some text' ∧ Advances delta text text'
  plain : ∀ text ∈ cell.text, isFormulaText text = false → step = none → copy.text = some text

theorem isCopy_copyOf (src dst : Range) (series : Bool) (c target : CellRef) (cell : Cell) :
    IsCopy (seriesStep? src dst series (c.displacementTo target)) (c.displacementTo target) cell
      (copyOf src dst series c target cell) := by
  have htext : (copyOf src dst series c target cell).text = cell.text.map
      (copiedText (seriesStep? src dst series (c.displacementTo target))
        (c.displacementTo target)) := rfl
  refine ⟨rfl, fun h => ?_, fun text h hformula => ?_, fun text h hplain delta hdelta => ?_,
    fun text h hplain hstep => ?_⟩
  · rw [htext, h, Option.map_none]
  · refine ⟨_, movesBy_shift _, ?_⟩
    rw [htext, h, Option.map_some]
    simp only [copiedText, hformula, if_true]
    rfl
  · rw [htext, h, hdelta]
    refine ⟨_, rfl, ?_⟩
    simp only [copiedText, hplain, Bool.false_eq_true, if_false]
    split
    · rename_i hempty
      subst hempty
      exact advances_seriesText delta ""
    · exact advances_seriesText delta text
  · rw [htext, h, hstep, Option.map_some]
    simp only [copiedText, hplain, Bool.false_eq_true, if_false]

namespace Rows

/-! ## Places and their sources -/

variable {s : Rows} {mode : CopyMode} {series : Bool}

theorem mem_sourceOf (src dst : Range) (c : CellRef) : src.mem (sourceOf src dst c) = true := by
  have hrow := Nat.mod_lt (c.row - dst.top) src.height_pos
  have hcol := Nat.mod_lt (c.col - dst.left) src.width_pos
  have htop := src.top_le_bottom
  have hleft := src.left_le_right
  rw [Range.mem_iff]
  simp only [sourceOf]
  unfold Range.height at hrow ⊢
  unfold Range.width at hcol ⊢
  omega

/-- A copy is written to the footprint. -/
theorem Copied.mem_footprint {w : CellRef × Cell} (x : Copied s src dst series w) :
    (footprint src dst).mem w.1 = true := by
  rw [mem_footprint_iff, x.tile_eq.1, x.tile_eq.2]
  exact ⟨⟨x.distance.1.1, x.down_le⟩, x.distance.2.1, x.across_le⟩

/-- A place is written when it is part of the footprint and its source is stored, and then
    with the copy of its source. -/
theorem mem_copies_iff_sourceOf {copy : Cell} :
    (c, copy) ∈ s.copies src dst series ↔ (footprint src dst).mem c = true ∧
      ∃ cell, s.cell? (sourceOf src dst c) = some cell ∧
        copy = copyOf src dst series (sourceOf src dst c) c cell := by
  rw [mem_copies_iff]
  constructor
  · rintro ⟨x⟩
    refine ⟨x.mem_footprint, x.cell, ?_, ?_⟩
    · rw [x.sourceOf_eq, x.cell_eq]
    · rw [x.sourceOf_eq]
      exact x.copy
  · rintro ⟨hc, cell, hcell, hcopy⟩
    obtain ⟨⟨hrow, hdown⟩, hcol, hacross⟩ := mem_footprint_iff.1 hc
    refine ⟨⟨sourceOf src dst c, cell, _, _, hcell, mem_sourceOf src dst c, hdown, hacross, ?_,
      hcopy⟩⟩
    simp only [sourceOf, Nat.add_sub_cancel_left, Nat.add_assoc, Nat.div_add_mod']
    rw [Nat.add_sub_cancel' hrow, Nat.add_sub_cancel' hcol]

/-- Which places are written. -/
theorem mem_map_copies_iff : c ∈ (s.copies src dst series).map Prod.fst ↔
    (footprint src dst).mem c = true ∧ (s.cell? (sourceOf src dst c)).isSome = true := by
  simp only [List.mem_map, Prod.exists, exists_and_right, exists_eq_right,
    mem_copies_iff_sourceOf, Option.isSome_iff_exists]
  constructor
  · rintro ⟨copy, hc, cell, hcell, -⟩
    exact ⟨hc, cell, hcell⟩
  · rintro ⟨hc, cell, hcell⟩
    exact ⟨_, hc, cell, hcell, rfl⟩

/-- A copy whose copies stay on their half of the grid changes the footprint only, which
    consists of whole copies of the source, as many as are needed to cover the destination. A
    place of it at whose source something is stored receives a copy of what was stored there.
    All other places stay as they are. The places that are reported are those that receive a
    copy, each of them once. -/
theorem copyBlock_footprint (s : Rows) (src dst : Range) (mode : CopyMode) (series : Bool)
    (hcopyable : s.Copyable src dst) :
    let after := (s.copyBlock src dst mode series).1
    let written := (s.copyBlock src dst mode series).2
    Tiles src dst (footprint src dst) ∧
    (∀ c, (footprint src dst).mem c = false → after.cell? c = s.cell? c) ∧
    (∀ c, (footprint src dst).mem c = true → src.mem (sourceOf src dst c) = true ∧
      ∀ cell, s.cell? (sourceOf src dst c) = some cell →
        let d := (sourceOf src dst c).offsetTo c
        ∃ copy, IsCopy (seriesStep? src dst series d) d cell copy ∧ (c, copy) ∈ written ∧
          after.cell? c = some (copy.receive mode (s.cell? c))) ∧
    (∀ c, (footprint src dst).mem c = true → s.cell? (sourceOf src dst c) = none →
      after.cell? c = s.cell? c) ∧
    (∀ c, c ∈ written.map Prod.fst ↔
      (footprint src dst).mem c = true ∧ (s.cell? (sourceOf src dst c)).isSome = true) ∧
    (written.map Prod.fst).Nodup := by
  intro after written
  have hkept {c : CellRef} (hc : c ∉ written.map Prod.fst) : after.cell? c = s.cell? c :=
    cell?_copyBlock_of_not_mem fun w hw heq => hc (List.mem_map.2 ⟨w, hw, heq⟩)
  refine ⟨tiles_footprint src dst, fun c hc => hkept fun hmem => ?_, fun c hc =>
    ⟨mem_sourceOf src dst c, fun cell hcell => ?_⟩, fun c _ hnone => hkept fun hmem => ?_,
    fun c => mem_map_copies_iff, ?_⟩
  · rw [(mem_map_copies_iff.1 hmem).1] at hc
    cases hc
  · have hmem : (c, copyOf src dst series (sourceOf src dst c) c cell) ∈ written :=
      mem_copies_iff_sourceOf.2 ⟨hc, cell, hcell, rfl⟩
    have hnear : (sourceOf src dst c).SameHalf c := by
      obtain ⟨x⟩ := mem_copies_iff.1 hmem
      exact x.sourceOf_eq ▸ hcopyable.sameHalf x
    have hcopy := isCopy_copyOf src dst series (sourceOf src dst c) c cell
    rw [hnear.displacementTo] at hcopy
    exact ⟨_, hcopy, hmem, cell?_copyBlock_of_mem hmem⟩
  · have hstored := (mem_map_copies_iff.1 hmem).2
    rw [hnone] at hstored
    cases hstored
  · exact List.pairwise_map.2 (pairwise_copies s src dst series)

/-- One cell is copied into two rows, and the copy in the second of them is looked at. -/
theorem copyBlock_footprint_down :
    let src : Range := .single .origin
    let dst : Range := .between ⟨1, 0⟩ ⟨2, 0⟩
    let s := Rows.single "=B2"
    let cell : Cell := { text := some "=B2" }
    (s.Copyable src dst ∧ (footprint src dst).mem ⟨2, 0⟩ = true ∧
      s.cell? (sourceOf src dst ⟨2, 0⟩) = some cell) ∧
    ∃ copy, IsCopy none ⟨0, 2⟩ cell copy ∧
      (s.copyBlock src dst .all false).1.cell? ⟨2, 0⟩ = some copy := by
  intro src dst s cell
  have hcopyable : s.Copyable src dst := by decide
  have hmem : (footprint src dst).mem ⟨2, 0⟩ = true := by decide
  have hcell : s.cell? (sourceOf src dst ⟨2, 0⟩) = some cell := by decide
  obtain ⟨-, -, hcopied, -⟩ := copyBlock_footprint s src dst .all false hcopyable
  obtain ⟨copy, hcopy, -, hafter⟩ := (hcopied _ hmem).2 cell hcell
  have hdown : (sourceOf src dst ⟨2, 0⟩).offsetTo ⟨2, 0⟩ = ⟨0, 2⟩ := by decide
  rw [hdown] at hcopy
  exact ⟨⟨hcopyable, hmem, hcell⟩, copy, hcopy, hafter⟩

/-- A cell in a column of more than three letters can be referred to, but a copy does not
    move such a reference. A reference to a cell of the last rows is lost when it is moved
    past them, and every reference is when the copy is made in the other half of the grid. -/
theorem copyBlock_wide :
    let copied (formula : String) (dst : CellRef) : Option Cell :=
      ((Rows.single formula).copyBlock (.single .origin) (.single dst) .all false).1.cell? dst
    (∃ wide, CellRef.ofText? "AAAA1" = some wide ∧
      (⟨wide.row + 1, wide.col⟩ : CellRef).toText = "AAAA2" ∧
      copied "=AAAA1" ⟨1, 0⟩ = some { text := some "=AAAA1" }) ∧
    (∃ last, CellRef.ofText? "A18446744073709551615" = some last ∧
      (⟨last.row + 2, last.col⟩ : CellRef).toText = "A18446744073709551617" ∧
      copied "=A18446744073709551615" ⟨2, 0⟩ = some { text := some "=#REF!" }) ∧
    CellRef.ofText? "A1" = some .origin ∧
      (⟨Address.reach, 0⟩ : CellRef).toText = "A9223372036854775809" ∧
      copied "=A1" ⟨Address.reach, 0⟩ = some { text := some "=#REF!" } := by
  refine ⟨⟨⟨0, 18278⟩, ?_⟩, ⟨⟨18446744073709551614, 0⟩, ?_⟩, ?_⟩
  · decide +kernel
  · decide +kernel
  · decide +kernel

end Rows

end Worksheet
