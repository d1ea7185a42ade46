import Worksheet.Proofs.Rows.Moving
import Worksheet.Proofs.Rows.Tiling

/-!
# Stored Blanks

Whether it can be told that a blank cell is stored.

The store is sparse, and a cell that is not stored means the same as a stored default
cell. Which of the two a blank place has is a matter of what was done to it before, so
whatever is done next should not depend on it. Most edits do not: they look at a place,
take a default cell when nothing is stored there, and go on from that.

Copying and moving are different, because they go through the stored cells of the source.
A stored blank is laid onto the place it is copied or moved to like any other cell, and
takes something away from there, while a blank that is not stored leaves the place as it
is. So the two can be told apart by such an edit, and exactly when there is something to
take away: under a copy, whatever the mode of the copy transfers, and under a move beside
the block that is moved, anything at all. Inside that block places are emptied in any case.

## Main definitions

* `Cell.look`: What is seen of a cell.
* `Cell.IsBare`: A cell from which the copy of a blank takes nothing away.
* `Padded`: A store in which more default cells are stored.
* `Alike`: Two stores that look alike everywhere.
* `StoreEdit`: An edit of the store, with `apply`.
* `StoreEdit.Spares`: No stored blank takes anything away.

## Theorems

* `Padded.clearCells`, `Padded.typeBlock`, `Padded.apply`: Edits that cannot tell.
* `look_copyBlock_iff`, `look_moveBlock_iff`: Where a copy and a move can tell.
* `alike_apply_iff`: What can be told from an edit.
-/

namespace Worksheet

/-- What is seen of a cell: its text, style and span, and whether it is open to edits. -/
def Cell.look (cell : Cell) : String × Option Nat × Span × Bool :=
  (cell.content, cell.style, cell.span, cell.editable)

/-- Is there nothing in a cell that the copy of a default cell takes away? -/
def Cell.IsBare (mode : CopyMode) (cell : Cell) : Prop :=
  match mode with
  | .all => cell.look = Cell.look {}
  | .text => cell.content = ""
  | .format => cell.style = none

/-- A cell that receives a default cell looks the same afterwards when nothing is taken
    away. A copy of the format leaves its span alone. -/
theorem Cell.look_receive_iff (mode : CopyMode) (here : Option Cell) :
    (Cell.receive mode {} here).look = (here.getD {}).look ↔ (here.getD {}).IsBare mode := by
  cases mode with
  | all => exact eq_comm
  | text =>
    simp only [Cell.receive, Cell.look, Cell.content, Cell.span, Cell.IsBare, Prod.mk.injEq,
      and_true, Option.getD_none]
    exact eq_comm
  | format =>
    simp only [Cell.receive, Cell.look, Cell.content, Cell.span, Cell.IsBare, Prod.mk.injEq,
      true_and, and_true, Option.none_or]
    exact eq_comm

namespace Rows

/-- What is seen of a place. -/
def look (s : Rows) (c : CellRef) : String × Option Nat × Span × Bool :=
  ((s.cell? c).getD {}).look

/-- Does a store hold the same as another, and default cells at some of the places where
    the other one holds nothing? -/
def Padded (s t : Rows) : Prop :=
  ∀ c, t.cell? c = s.cell? c ∨ s.cell? c = none ∧ t.cell? c = some {}

/-- Do two stores look alike everywhere? -/
def Alike (s t : Rows) : Prop := ∀ c, t.look c = s.look c

/-- An edit of the store. -/
inductive StoreEdit where
  | copy (src dst : Range) (mode : CopyMode) (series : Bool)
  | move (src dst : Range)
  | set (c : CellRef) (cell : Cell) (mode : CopyMode)
  | clear (r : Range) (mode : ClearMode)
  | type (c : CellRef) (block : List (List String))
  | lines (e : LineEdit)

namespace StoreEdit

/-- The store after an edit. -/
def apply (s : Rows) : StoreEdit → Rows
  | .copy src dst mode series => (s.copyBlock src dst mode series).1
  | .move src dst => s.moveBlock src dst
  | .set c cell mode => s.setCell c cell mode
  | .clear r mode => s.clearCells mode r
  | .type c block => s.typeBlock c block
  | .lines e => e.apply s

/-- Does nothing get lost under the blanks that only the second store holds? A copy may
    lay them onto places without what it transfers. A move may lay them onto places of the
    block, and onto others that are blank, and out of a block that reaches the last column
    it moves nothing. -/
def Spares (s t : Rows) : StoreEdit → Prop
  | .copy src dst mode _ => ∀ c, (footprint src dst).mem c = true →
    s.cell? (sourceOf src dst c) = none → t.cell? (sourceOf src dst c) = some {} →
    ((s.cell? c).getD {}).IsBare mode
  | .move src dst => src.right + 1 ≠ Address.gridLimit →
    ∀ c, src.mem c = true → s.cell? c = none → t.cell? c = some {} →
    src.mem (movedTo src dst c) = false → s.look (movedTo src dst c) = Cell.look {}
  | _ => True

end StoreEdit

variable {s t : Rows} {src dst : Range} {mode : CopyMode} {series : Bool} {c : CellRef}

namespace Padded

/-- What is stored in the first store is stored in the second. -/
theorem cell?_eq (h : Padded s t) {cell : Cell} (hcell : s.cell? c = some cell) :
    t.cell? c = some cell := by
  rcases h c with heq | ⟨hnone, -⟩
  · rw [heq, hcell]
  · rw [hcell] at hnone
    cases hnone

/-- Whoever takes a default cell where nothing is stored cannot tell the stores apart. -/
theorem getD_eq (h : Padded s t) (c : CellRef) : (t.cell? c).getD {} = (s.cell? c).getD {} := by
  rcases h c with heq | ⟨hnone, hblank⟩
  · rw [heq]
  · rw [hnone, hblank]
    rfl

theorem alike (h : Padded s t) : Alike s t := fun c => by rw [look, look, h.getD_eq]

/-! ## Edits that cannot tell -/

/-- A cell receives the same, whether a blank was stored or not. -/
theorem receive_eq (h : Padded s t) (mode : CopyMode) (source : Cell) (c : CellRef) :
    source.receive mode (t.cell? c) = source.receive mode (s.cell? c) := by
  cases mode with
  | all => rfl
  | text | format => simp only [Cell.receive, h.getD_eq]

theorem updateCell (h : Padded s t) {c : CellRef} {edit : Option Cell → Cell}
    (hedit : edit (t.cell? c) = edit (s.cell? c)) :
    Padded (s.updateCell c edit) (t.updateCell c edit) := by
  intro c'
  rw [cell?_updateCell, cell?_updateCell]
  by_cases hc : c' = c
  · rw [if_pos hc, if_pos hc, hedit]
    exact .inl rfl
  · rw [if_neg hc, if_neg hc]
    exact h c'

theorem setCell (h : Padded s t) (c : CellRef) (cell : Cell) (mode : CopyMode) :
    Padded (s.setCell c cell mode) (t.setCell c cell mode) :=
  h.updateCell (h.receive_eq mode cell c)

theorem setText (h : Padded s t) (c : CellRef) (text : String) :
    Padded (s.setText c text) (t.setText c text) :=
  h.updateCell (by rw [h.getD_eq])

theorem typeLine (h : Padded s t) (row col : Nat) (ts : List String) :
    Padded (s.typeLine row col ts) (t.typeLine row col ts) := by
  induction ts generalizing s t col with
  | nil => exact h
  | cons text ts ih => exact ih (h.setText ⟨row, col⟩ text) (col + 1)

theorem typeBlock (h : Padded s t) (c : CellRef) (lines : List (List String)) :
    Padded (s.typeBlock c lines) (t.typeBlock c lines) := by
  induction lines generalizing s t c with
  | nil => exact h
  | cons line lines ih => exact ih (h.typeLine c.row c.col line) ⟨c.row + 1, c.col⟩

/-- A stored blank is taken out by clearing it as a whole, and is left as it is
    otherwise. -/
theorem clearCells (h : Padded s t) (mode : ClearMode) (r : Range) :
    Padded (s.clearCells mode r) (t.clearCells mode r) := by
  intro c
  rw [cell?_clearCells, cell?_clearCells]
  split
  · rcases h c with heq | ⟨hnone, hblank⟩
    · rw [heq]
      exact .inl rfl
    · rw [hnone, hblank]
      cases mode with
      | all => exact .inl rfl
      | text | format | merge => exact .inr ⟨rfl, rfl⟩
  · exact h c

/-- A stored blank goes along with its line. -/
theorem apply (h : Padded s t) (e : LineEdit) : Padded (e.apply s) (e.apply t) := by
  intro c'
  cases ht : (e.apply t).cell? c' with
  | some cell' =>
    obtain ⟨c, cell, hkeeps, rfl, hcell, hrewrite⟩ := LineEdit.exists_of_cell?_apply ht
    rw [LineEdit.cell?_apply e s hkeeps]
    rcases h c with heq | ⟨hnone, hblank⟩
    · rw [← heq, hcell, Option.map_some, hrewrite]
      exact .inl rfl
    · rw [hcell, Option.some.injEq] at hblank
      rw [hnone, ← hrewrite, hblank]
      exact .inr ⟨rfl, rfl⟩
  | none =>
    -- A cell that stays in the first store stays in the second one too.
    refine .inl (Option.eq_none_iff_forall_not_mem.2 fun cell' hs => ?_).symm
    obtain ⟨c, cell, hkeeps, rfl, hcell, -⟩ := LineEdit.exists_of_cell?_apply hs
    rw [LineEdit.cell?_apply e t hkeeps, h.cell?_eq hcell] at ht
    cases ht

end Padded

/-- A default cell that is stored where nothing was makes a store that is padded. -/
theorem padded_setCell (h : s.cell? c = none) : Padded s (s.setCell c {} .all) := by
  intro c'
  rw [cell?_setCell]
  split
  · rename_i hc
    exact .inr ⟨hc ▸ h, rfl⟩
  · exact .inl rfl

/-! ## Copies -/

/-- The copy of a default cell is one. -/
theorem copyOf_default (src dst : Range) (series : Bool) (c target : CellRef) :
    copyOf src dst series c target {} = {} := rfl

/-- A place looks different after a copy just when a stored blank is copied there and
    takes something away. -/
theorem look_copyBlock_iff (h : Padded s t) :
    (t.copyBlock src dst mode series).1.look c = (s.copyBlock src dst mode series).1.look c ↔
      ((footprint src dst).mem c = true → s.cell? (sourceOf src dst c) = none →
        t.cell? (sourceOf src dst c) = some {} → ((s.cell? c).getD {}).IsBare mode) := by
  have hcopied {u : Rows} {cell : Cell} (hc : (footprint src dst).mem c = true)
      (hcell : u.cell? (sourceOf src dst c) = some cell) :
      (u.copyBlock src dst mode series).1.cell? c =
        some ((copyOf src dst series (sourceOf src dst c) c cell).receive mode (u.cell? c)) :=
    cell?_copyBlock_of_mem (mem_copies_iff_sourceOf.2 ⟨hc, cell, hcell, rfl⟩)
  have hkept {u : Rows} (hc : (footprint src dst).mem c = true →
      u.cell? (sourceOf src dst c) = none) :
      (u.copyBlock src dst mode series).1.cell? c = u.cell? c := by
    refine cell?_copyBlock_of_not_mem fun w hw heq => ?_
    subst heq
    obtain ⟨hmem, cell, hcell, -⟩ := mem_copies_iff_sourceOf.1 hw
    rw [hc hmem] at hcell
    cases hcell
  by_cases hc : (footprint src dst).mem c = true
  · cases hs : s.cell? (sourceOf src dst c) with
    | some cell =>
      -- The same copy is laid onto the place in both stores.
      have hsame : (t.copyBlock src dst mode series).1.look c =
          (s.copyBlock src dst mode series).1.look c := by
        rw [look, look, hcopied hc hs, hcopied hc (h.cell?_eq hs), h.receive_eq]
      simp [hsame]
    | none =>
      rw [look, look, hkept (fun _ => hs)]
      rcases h (sourceOf src dst c) with heq | ⟨-, hblank⟩
      · rw [hs] at heq
        rw [hkept (fun _ => heq), h.getD_eq, heq]
        simp
      · rw [hcopied hc hblank, copyOf_default, h.receive_eq, Option.getD_some, hblank,
          Cell.look_receive_iff]
        simp [hc]
  · rw [look, look, hkept (fun hmem => absurd hmem hc), hkept (fun hmem => absurd hmem hc),
      h.getD_eq]
    simp [hc]

/-! ## Moves -/

/-- A place looks different after a move just when a stored blank is moved there, the place
    is beside the block, and something was seen there before. -/
theorem look_moveBlock_iff (h : Padded s t) (hright : src.right + 1 ≠ Address.gridLimit) :
    (t.moveBlock src dst).look c = (s.moveBlock src dst).look c ↔
      ∀ c', src.mem c' = true → s.cell? c' = none → t.cell? c' = some {} →
        movedTo src dst c' = c → src.mem c = false → s.look c = Cell.look {} := by
  by_cases hs : Arrives s src dst c
  · -- The same cell arrives in both stores, and no other one.
    obtain ⟨c', hmem, hstored, rfl⟩ := hs
    obtain ⟨cell, hcell⟩ := Option.isSome_iff_exists.1 hstored
    have hsame : (t.moveBlock src dst).look (movedTo src dst c') =
        (s.moveBlock src dst).look (movedTo src dst c') := by
      rw [look, look, cell?_moveBlock_of_mem hright hcell hmem,
        cell?_moveBlock_of_mem hright (h.cell?_eq hcell) hmem]
    refine ⟨fun _ c'' hmem' hnone _ heq => ?_, fun _ => hsame⟩
    rw [movedTo_inj hmem' hmem heq, hcell] at hnone
    cases hnone
  · rw [look, look, cell?_moveBlock_of_not_arrives hright hs]
    by_cases ht : Arrives t src dst c
    · obtain ⟨c', hmem, hstored, rfl⟩ := ht
      have hnone : s.cell? c' = none := by
        refine Option.eq_none_iff_forall_not_mem.2 fun cell hcell => hs ?_
        exact ⟨c', hmem, Option.isSome_iff_exists.2 ⟨cell, hcell⟩, rfl⟩
      have hblank : t.cell? c' = some {} := by
        rcases h c' with heq | ⟨-, hblank⟩
        · rw [heq, hnone] at hstored
          cases hstored
        · exact hblank
      rw [cell?_moveBlock_of_mem hright hblank hmem]
      by_cases hinside : src.mem (movedTo src dst c') = true
      · simp [hinside]
      · rw [if_neg hinside, Option.getD_some]
        constructor
        · intro heq c'' _ _ _ _ _
          exact heq.symm
        · intro hspares
          exact (hspares c' hmem hnone hblank rfl (Bool.not_eq_true _ ▸ hinside)).symm
    · rw [cell?_moveBlock_of_not_arrives hright ht]
      constructor
      · intro _ c' hmem _ hblank heq
        exact absurd ⟨c', hmem, Option.isSome_iff_exists.2 ⟨_, hblank⟩, heq⟩ ht
      · intro _
        split
        · rfl
        · rw [h.getD_eq]

/-! ## Every edit -/

/-- After an edit two stores that differ in stored blanks only look alike everywhere, if
    and only if no blank that is copied or moved takes anything away. Setting, clearing and
    typing into cells and inserting and deleting lines never tells them apart. -/
theorem alike_apply_iff (h : Padded s t) (e : StoreEdit) :
    Alike (e.apply s) (e.apply t) ↔ e.Spares s t := by
  cases e with
  | copy src dst mode series => exact forall_congr' fun c => look_copyBlock_iff h
  | move src dst =>
    constructor
    · intro halike hright c hmem hnone hblank hbeside
      exact (look_moveBlock_iff h hright).1 (halike _) c hmem hnone hblank rfl hbeside
    · intro hspares
      by_cases hright : src.right + 1 = Address.gridLimit
      · simp only [StoreEdit.apply, moveBlock_of_last hright]
        exact h.alike
      · intro c
        refine (look_moveBlock_iff h hright).2 fun c' hmem hnone hblank heq hbeside => ?_
        subst heq
        exact hspares hright c' hmem hnone hblank hbeside
  | set c cell mode => exact iff_of_true (h.setCell c cell mode).alike trivial
  | clear r mode => exact iff_of_true (h.clearCells mode r).alike trivial
  | type c block => exact iff_of_true (h.typeBlock c block).alike trivial
  | lines e => exact iff_of_true (h.apply e).alike trivial

/-- A blank is stored beside a text, and then copied onto it. -/
theorem alike_apply_iff_copied :
    let s := Rows.single "x"
    let t := s.setCell ⟨0, 1⟩ {} .all
    let e := StoreEdit.copy (.single ⟨0, 1⟩) (.single .origin) .all false
    Padded s t ∧ ¬Alike (e.apply s) (e.apply t) := by
  intro s t e
  have hpadded : Padded s t := padded_setCell (by decide)
  refine ⟨hpadded, fun h => ?_⟩
  have hbare := (alike_apply_iff hpadded e).1 h .origin (by decide) (by decide) (by decide)
  exact absurd hbare (by unfold Cell.IsBare; decide)

end Rows

end Worksheet
