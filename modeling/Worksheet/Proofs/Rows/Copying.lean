import Worksheet.Proofs.Address.Moving
import Worksheet.Proofs.Rows.Editing
import Worksheet.Proofs.Rows.Transfer

/-!
# Values of a Copied Block

A block of cells that is copied as a whole has the values that it had.

The references of a formula move along with a copy. If the formulas of a block refer to
nothing outside of it, the copies refer to the copies, and the block and its copy are
evaluated side by side. All cells of a block are copied equally far, so its ranges stay
whole. What can go wrong is that a reference is pushed off the grid. It need not be one
to a stored cell, and then the copy has lost what the block still has. Nor does a copy keep
its references that is made in the other half of the grid, which is farther away than a
displacement can be.

## Main definitions

* `Formula.SelfContained`: A formula that refers to nothing outside of a block.
* `Rows.LosesReference`: A copy that fails although the formula does not.

## Theorems

* `Rows.content_copyBlock_movedTo`: The text of a copy.
* `Rows.copiedText_movedTo`: References of all copies are moved equally far.
* `Rows.textFollows_copiedText`: The text of a copy says the same about the copies.
* `evaluateCell_copied`: A copied block has the values of the block.
* `evaluateCell_copied_off_grid`: Unless a reference is pushed off the grid, or the copy is
  too far away.
-/

namespace Worksheet

/-- Does a formula refer to nothing outside of a block, and is no reference of it pushed
    off the grid when the block is copied to a place? -/
structure Formula.SelfContained (src dst : Range) (limit : Nat) (body : List Char) : Prop where
  unambiguous : Address.Unambiguous false body
  references : ∀ w ∈ Address.references body, ∀ c ∈ CellRef.ofChars? w, src.mem c = true
  ranges : ∀ r ∈ expandedRanges limit body, r.within src = true
  fits : ∀ w ∈ Address.references body, ∀ c ∈ CellRef.ofChars? w, (Rows.movedTo src dst c).Fits

namespace Rows

/-! ## The copy of a formula -/

section

variable {src dst : Range} {limit : Nat}

/-- All cells of a block are copied equally far. -/
theorem offsetTo_movedTo {c : CellRef} (hc : src.mem c = true) :
    c.offsetTo (movedTo src dst c) = src.first.offsetTo dst.first := by
  rw [Range.mem_iff] at hc
  simp only [CellRef.offsetTo, movedTo, Range.first, Displacement.mk.injEq]
  omega

/-- A reference into the block is rewritten to the copy of its cell. -/
theorem ofChars?_shift {w : List Char} {c : CellRef} (hcell : CellRef.ofChars? w = some c)
    (hc : src.mem c = true) (hfits : (movedTo src dst c).Fits) :
    CellRef.ofChars? (Address.shift (src.first.offsetTo dst.first) (fun _ => true) w) =
      some (movedTo src dst c) := by
  have hmoved : c.move? (src.first.offsetTo dst.first) = some (movedTo src dst c) := by
    rw [← offsetTo_movedTo hc]
    exact CellRef.move?_offsetTo (Nat.lt_of_succ_lt hfits.1) (Nat.lt_of_succ_lt hfits.2)
  simp only [Address.shift, hcell, hmoved, if_true]
  exact CellRef.ofChars?_toChars hfits.1 hfits.2

/-- A block is moved by moving its rows and its columns, each as a whole. -/
theorem rigid_add_sub {first first' lo hi : Nat} (h : first ≤ lo) :
    Rigid (fun i => first' + (i - first)) lo hi := by
  intro i hlo _
  simp only
  omega

/-- The cells of a range in the block are copied to the cells between the copies of its
    corners. -/
theorem cells_movedTo {a b : CellRef} (h : (Range.between a b).within src = true) :
    (Range.between (movedTo src dst a) (movedTo src dst b)).cells =
      (Range.between a b).cells.map (movedTo src dst) := by
  rw [Range.within_iff] at h
  let row (i : Nat) : Nat := dst.top + (i - src.top)
  let col (j : Nat) : Nat := dst.left + (j - src.left)
  have hrows : (Range.between (a.mapLine .row row) (b.mapLine .row row)).cells =
      (Range.between a b).cells.map (CellRef.mapLine .row row) :=
    Range.cells_mapLine (rigid_add_sub h.1)
  have hcols : (Range.between ((a.mapLine .row row).mapLine .column col)
        ((b.mapLine .row row).mapLine .column col)).cells =
      (Range.between (a.mapLine .row row) (b.mapLine .row row)).cells.map
        (CellRef.mapLine .column col) :=
    Range.cells_mapLine (rigid_add_sub h.2.2.1)
  refine hcols.trans ?_
  rw [hrows, List.map_map]
  rfl

/-- The text of a copy says about the copies what the text says about the block. -/
theorem textFollows_copiedText {text : String}
    (h : ∀ body, text.toList = '=' :: body → Formula.SelfContained src dst limit body) :
    Formula.TextFollows (movedTo src dst) (fun c => src.mem c = true) limit text
      (copiedText none (src.first.offsetTo dst.first) text) := by
  refine Formula.textFollows_shiftReferences fun body hbody => ?_
  have hself := h body hbody
  refine ⟨hself.unambiguous, fun w hw => ?_, ?_, ?_⟩
  · exact Address.wordFollows_shift fun c hc =>
      ofChars?_shift hc (hself.references w hw c hc) (hself.fits w hw c hc)
  · rintro r hr a b ha hb ha' hb' rfl
    exact Formula.rangeOperands_between_follows ha hb ha' hb' (cells_movedTo (hself.ranges _ hr))
  · exact Formula.refersTo_of_references hself.unambiguous hself.references fun r hr c hc =>
      Range.mem_of_within (hself.ranges r hr) (Range.mem_cells_iff.1 hc)

end

/-! ## The cells of a copy -/

section

variable {s : Rows} {src dst : Range} {mode : CopyMode}

/-- A copy that is not repeated leaves the block as it is, if it is made beside it. -/
theorem content_copyBlock_of_mem (hheight : dst.height ≤ src.height)
    (hwidth : dst.width ≤ src.width) (hapart : (footprint src dst).intersects src = false)
    {c : CellRef} (hc : src.mem c = true) :
    (s.copyBlock src dst mode false).1.content c = s.content c := by
  unfold content
  rw [cell?_copyBlock_of_not_mem fun w hw heq => ?_]
  obtain ⟨x⟩ := mem_copies_iff.1 hw
  have hmeet := Range.intersects_of_mem (mem_footprint_movedTo hheight hwidth x.mem)
    (by rwa [← x.target_eq hheight hwidth, heq])
  rw [hapart] at hmeet
  cases hmeet

/-- The text of a copy, where nothing was stored. -/
theorem content_copyBlock_movedTo (hmode : mode ≠ .format) (hheight : dst.height ≤ src.height)
    (hwidth : dst.width ≤ src.width) {c : CellRef} (hc : src.mem c = true)
    (hempty : s.cell? (movedTo src dst c) = none) :
    (s.copyBlock src dst mode false).1.content (movedTo src dst c) =
      copiedText none (c.displacementTo (movedTo src dst c)) (s.content c) := by
  unfold content
  cases hcell : s.cell? c with
  | none =>
    -- Nothing is copied there, since only the copy of this cell could be.
    rw [cell?_copyBlock_of_not_mem fun w hw heq => ?_, hempty]
    · rfl
    · obtain ⟨x⟩ := mem_copies_iff.1 hw
      rw [x.target_eq hheight hwidth] at heq
      have hstored := x.cell_eq
      rw [movedTo_inj x.mem hc heq, hcell] at hstored
      cases hstored
  | some cell =>
    rw [cell?_copyBlock_of_mem (mem_copies_movedTo hcell hc)]
    obtain ⟨text⟩ := cell
    have hcopied (d : Displacement) (t : Option String) :
        (t.map (copiedText none d)).getD "" = copiedText none d (t.getD "") := by
      cases t <;> rfl
    cases mode with
    | format => exact absurd rfl hmode
    | all => exact hcopied _ text
    | text => exact hcopied _ text

/-- The references of all copies are moved as far as the block is. -/
theorem copiedText_movedTo (hcopyable : s.Copyable src dst) (hheight : dst.height ≤ src.height)
    (hwidth : dst.width ≤ src.width) {c : CellRef} (hc : src.mem c = true) :
    copiedText none (c.displacementTo (movedTo src dst c)) (s.content c) =
      copiedText none (src.first.offsetTo dst.first) (s.content c) := by
  cases hcell : s.cell? c with
  | none =>
    rw [content, hcell]
    rfl
  | some cell =>
    have hmem : (movedTo src dst c, copyOf src dst false c (movedTo src dst c) cell) ∈
        s.copies src dst false := mem_copies_movedTo hcell hc
    obtain ⟨x⟩ := mem_copies_iff.1 hmem
    have hnear := hcopyable.sameHalf x
    rw [movedTo_inj x.mem hc (x.target_eq hheight hwidth).symm] at hnear
    rw [hnear.displacementTo, offsetTo_movedTo hc]

end

end Rows

/-- A block that is copied beside itself into empty cells has the values that it had, if
    its formulas refer to nothing outside of it, no stored cell leaves its half of the grid
    and no reference is pushed off the grid. -/
theorem evaluateCell_copied (limits : Formula.Limits) (s : Rows) {src dst : Range}
    {mode : CopyMode} (hmode : mode ≠ .format) (hcopyable : s.Copyable src dst)
    (hheight : dst.height ≤ src.height)
    (hwidth : dst.width ≤ src.width) (hapart : (footprint src dst).intersects src = false)
    (hempty : ∀ c, (footprint src dst).mem c = true → s.cell? c = none)
    (hself : ∀ c body, src.mem c = true → (s.content c).toList = '=' :: body →
      Formula.SelfContained src dst limits.rangeCells body)
    {c : CellRef} (hc : src.mem c = true) :
    let copied := (s.copyBlock src dst mode false).1
    (Formula.evaluateCell limits copied.lookup (Rows.movedTo src dst c)).1 =
      (Formula.evaluateCell limits copied.lookup c).1 := by
  intro copied
  have hinj : Formula.MovesApart (Rows.movedTo src dst) (fun d => src.mem d = true) :=
    fun a b ha hb => Rows.movedTo_inj ha hb
  refine Formula.evaluateCell_follows hinj limits (fun d hd => ?_) hc
  have hroom := hempty _ (Rows.mem_footprint_movedTo hheight hwidth hd)
  show Formula.TextFollows _ _ _ (copied.content d) (copied.content (Rows.movedTo src dst d))
  rw [Rows.content_copyBlock_of_mem hheight hwidth hapart hd,
    Rows.content_copyBlock_movedTo hmode hheight hwidth hd hroom,
    Rows.copiedText_movedTo hcopyable hheight hwidth hd]
  exact Rows.textFollows_copiedText fun body hbody => hself d body hd hbody

/-- It is so for a sum of two cells that is copied along with them. -/
theorem evaluateCell_copied_sum :
    let src : Range := .between .origin ⟨1, 1⟩
    let dst : Range := .single ⟨0, 3⟩
    let s := Rows.single "=SUM(A2:B2)"
    let copied := (s.copyBlock src dst .all false).1
    CopyMode.all ≠ .format ∧ s.Copyable src dst ∧
      dst.height ≤ src.height ∧ dst.width ≤ src.width ∧
      (footprint src dst).intersects src = false ∧
      (∀ c, (footprint src dst).mem c = true → s.cell? c = none) ∧
      (∀ c body, src.mem c = true → (s.content c).toList = '=' :: body →
        Formula.SelfContained src dst Formula.defaultRangeLimit body) ∧
      src.mem .origin = true ∧
      (Formula.evaluateCell {} copied.lookup (Rows.movedTo src dst .origin)).1 =
        (Formula.evaluateCell {} copied.lookup .origin).1 := by
  intro src dst s copied
  have hempty : ∀ c, (footprint src dst).mem c = true → s.cell? c = none :=
    Rows.cell?_single_of_not_mem (by decide) _
  have hself : ∀ c body, src.mem c = true → (s.content c).toList = '=' :: body →
      Formula.SelfContained src dst Formula.defaultRangeLimit body := by
    intro c body _ hbody
    have hsum : body = "SUM(A2:B2)".toList := by
      simpa using (Rows.body_of_content_single hbody).symm
    subst hsum
    refine ⟨Address.unambiguous_of_no_point (by decide) (by decide) (by decide), ?_, ?_, ?_⟩
    all_goals decide +kernel
  have hcopyable : s.Copyable src dst := by decide
  refine ⟨by decide, hcopyable, by decide, by decide, by decide, hempty, hself, by decide, ?_⟩
  exact evaluateCell_copied {} s (by decide) hcopyable (by decide) (by decide) (by decide) hempty
    hself (by decide)

/-- Is a formula at the origin copied with a block that it refers to nothing outside of,
    beside it and into empty cells, and does the copy fail although the formula does not? -/
def Rows.LosesReference (src dst : Range) (body : String) : Prop :=
  let s := Rows.single ("=" ++ body)
  let copied := (s.copyBlock src dst .all false).1
  dst.height ≤ src.height ∧ dst.width ≤ src.width ∧
    (footprint src dst).intersects src = false ∧
    (∀ c, (footprint src dst).mem c = true → s.cell? c = none) ∧
    (Address.Unambiguous false body.toList ∧
      (∀ w ∈ Address.references body.toList, ∀ c ∈ CellRef.ofChars? w, src.mem c = true) ∧
      ∀ r ∈ Formula.expandedRanges Formula.defaultRangeLimit body.toList, r.within src = true) ∧
    src.mem .origin = true ∧
    (Formula.evaluateCell {} copied.lookup .origin).1 = .text "" ∧
    (Formula.evaluateCell {} copied.lookup (Rows.movedTo src dst .origin)).1 = .failure .reference

/-- The formula refers to an empty cell of the block, and its copy is the mark of a lost
    reference. -/
theorem Rows.losesReference_of_lost {src dst : Range} {body : String} {c : CellRef}
    (hheight : dst.height ≤ src.height) (hwidth : dst.width ≤ src.width)
    (hapart : (Range.spanning dst.first (src.height - 1) (src.width - 1)).intersects src = false)
    (horigin : src.mem .origin = true) (hmem : src.mem c = true) (hc : c ≠ .origin)
    (hself : Address.Unambiguous false body.toList ∧
      (∀ w ∈ Address.references body.toList, ∀ c ∈ CellRef.ofChars? w, src.mem c = true) ∧
      ∀ r ∈ Formula.expandedRanges Formula.defaultRangeLimit body.toList, r.within src = true)
    (hcell : CellRef.ofText? body = some c)
    (htokens : Formula.postfixOf ({} : Formula.Limits).rangeCells body.toList = [.operand body])
    (hsign : Formula.splitSign body = (false, body))
    (hlost : copiedText none (CellRef.origin.displacementTo (movedTo src dst .origin))
      ("=" ++ body) = "=#REF!") :
    LosesReference src dst body := by
  rw [← footprint_of_le hheight hwidth] at hapart
  have hbeside : (footprint src dst).mem .origin = false := by
    refine Bool.eq_false_iff.2 fun hin => ?_
    rw [Range.intersects_of_mem hin horigin] at hapart
    cases hapart
  have hempty : ∀ c, (footprint src dst).mem c = true → (single ("=" ++ body)).cell? c = none :=
    cell?_single_of_not_mem hbeside _
  refine ⟨hheight, hwidth, hapart, hempty, hself, horigin, ?_, ?_⟩
  · refine evaluateCell_empty ?_ hcell htokens hsign hc ?_
    · rw [lookup, content_copyBlock_of_mem hheight hwidth hapart horigin, content_single,
        if_pos rfl, String.toList_append]
      rfl
    · rw [lookup, content_copyBlock_of_mem hheight hwidth hapart hmem, content_single, if_neg hc]
  · refine evaluateCell_lost ((content_copyBlock_movedTo (by decide) hheight hwidth horigin
      (hempty _ (mem_footprint_movedTo hheight hwidth horigin))).trans ?_)
    rw [content_single, if_pos rfl, hlost]

/-- A reference into the block that is pushed off the grid is lost: what it refers to is
    empty in the block, and the copy refers to nothing. So it is with all references if the
    copy is made in the other half of the grid. -/
theorem evaluateCell_copied_off_grid :
    Rows.LosesReference (.between .origin ⟨18446744073709551614, 0⟩) (.single ⟨2, 1⟩)
      "A18446744073709551615" ∧
    Rows.LosesReference (.between .origin ⟨1, 0⟩) (.single ⟨Address.reach, 1⟩) "A2" := by
  refine ⟨Rows.losesReference_of_lost (c := ⟨18446744073709551614, 0⟩) (by decide) (by decide)
      (by decide) (by decide) (by decide) (by decide) ⟨?_, by decide +kernel, by decide +kernel⟩
      (by decide) (by decide +kernel) (by decide) (by decide),
    Rows.losesReference_of_lost (c := ⟨1, 0⟩) (by decide) (by decide)
      (by decide) (by decide) (by decide) (by decide) ⟨?_, by decide, by decide⟩
      (by decide) (by decide) (by decide) (by decide)⟩
  all_goals exact Address.unambiguous_of_no_point (by decide) (by decide) (by decide)

end Worksheet
