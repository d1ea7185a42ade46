import Worksheet.Proofs.Sheet.Mirror
import Worksheet.Proofs.Sheet.Typing

/-!
# Blocks of Text

Cells that leave a sheet as one text, and come back from it.

A block of cells is written with tabs between the cells of a row and with newlines between
the rows, and nothing tells a tab or a newline in a cell from those between cells. So a
block is read back as it was written only if its cells have neither. They must not have a
double quote either, because quotes are dropped when a text is read. And a carriage return
at the end of a row would change what separates all of them. No more is needed: an empty
piece is kept wherever nothing stands between two separators, so empty cells and rows have
their places, and a block of one empty cell is the empty text.

What is read is typed cell by cell, and a place that is no part of the block is passed by.

## Main definitions

* `Text.IsPlain`: The texts that can stand in a block.
* `Rows.textAt?`: The text that a block has for a place.
* `Sheet.textsIn`: The texts of a range.

## Theorems

* `Text.splitOn_eq`: Cutting at a separator is the cutting of lists.
* `Sheet.textBlock_join`: A block is read back from its text.
* `Rows.cell?_typeBlock`: The cells after a block was typed.
* `Sheet.pasteText_selectedText`: The selected cells are carried to another place.
-/

namespace Worksheet

namespace Text

/-- Has a text no tab, newline, carriage return or double quote? -/
def IsPlain (s : String) : Prop :=
  ∀ a ∈ s.toList, a ≠ '\t' ∧ a ≠ '\n' ∧ a ≠ '\r' ∧ a ≠ '"'

/-- Of the text, not of all characters that there are. -/
instance (s : String) : Decidable (IsPlain s) :=
  List.decidableBAll (fun a => a ≠ '\t' ∧ a ≠ '\n' ∧ a ≠ '\r' ∧ a ≠ '"') s.toList

/-! ## Cutting -/

theorem splitOn_eq (sep : Char) (cs : List Char) : splitOn sep cs = cs.splitOn sep := by
  induction cs with
  | nil => rw [splitOn, List.splitOn_nil]
  | cons c cs ih =>
    rw [splitOn, List.splitOn_cons_eq_if_modifyHead, ← ih]
    by_cases hc : c = sep
    · rw [if_pos hc, if_pos (beq_iff_eq.2 hc)]
    · rw [if_neg hc, if_neg (mt beq_iff_eq.1 hc)]
      -- There always is a first piece for the character to go to.
      obtain ⟨piece, rest, hcut⟩ := List.exists_cons_of_ne_nil (splitOn_ne_nil sep cs)
      rw [hcut, List.modifyHead_cons]

/-- What is joined consists of the pieces and of what stands between them. -/
theorem mem_intercalate {sep a : Char} {pieces : List (List Char)}
    (h : a ∈ [sep].intercalate pieces) : a = sep ∨ ∃ piece ∈ pieces, a ∈ piece := by
  induction pieces with
  | nil => cases h
  | cons piece pieces ih =>
    cases pieces with
    | nil => exact .inr ⟨piece, List.mem_cons_self, by simpa using h⟩
    | cons next rest =>
      rw [List.intercalate_cons_cons, List.mem_append, List.mem_append,
        List.mem_singleton] at h
      rcases h with (h | h) | h
      · exact .inr ⟨piece, List.mem_cons_self, h⟩
      · exact .inl h
      · rcases ih h with heq | ⟨other, hother, hmem⟩
        · exact .inl heq
        · exact .inr ⟨other, List.mem_cons_of_mem _ hother, hmem⟩

/-- Without a carriage return, lines end with newlines alone. -/
theorem hasPair_eq_false {cs : List Char} (h : '\r' ∉ cs) : hasPair cs = false := by
  induction cs with
  | nil => rfl
  | cons c cs ih =>
    rw [List.mem_cons, not_or] at h
    rw [hasPair, ih h.2]
    rintro cs' rfl -
    exact h.1 rfl

theorem lines_intercalate {rows : List (List Char)} (hne : rows ≠ [])
    (h : ∀ row ∈ rows, ∀ a ∈ row, a ≠ '\n' ∧ a ≠ '\r') :
    lines (['\n'].intercalate rows) = rows := by
  have hreturn : '\r' ∉ ['\n'].intercalate rows := by
    intro hmem
    rcases mem_intercalate hmem with heq | ⟨row, hrow, hin⟩
    · cases heq
    · exact (h row hrow _ hin).2 rfl
  rw [lines, hasPair_eq_false hreturn, if_neg Bool.false_ne_true, splitOn_eq]
  exact List.splitOn_intercalate '\n' (fun row hrow hin => (h row hrow _ hin).1 rfl) hne

end Text

/-! ## Reading a block back -/

namespace Sheet

/-- A row of plain texts is read back. -/
theorem pieces_join {texts : List String} (hne : texts ≠ []) (h : ∀ t ∈ texts, Text.IsPlain t) :
    (Text.splitOn '\t' ((String.intercalate "\t" texts).toList.filter (· != '"'))).map
      String.ofList = texts := by
  have hmem {a : Char} (ha : a ∈ (String.intercalate "\t" texts).toList) :
      a = '\t' ∨ ∃ t ∈ texts, a ∈ t.toList := by
    rw [String.toList_intercalate] at ha
    rcases Text.mem_intercalate ha with heq | ⟨piece, hpiece, hin⟩
    · exact .inl heq
    · obtain ⟨t, ht, rfl⟩ := List.mem_map.1 hpiece
      exact .inr ⟨t, ht, hin⟩
  have hquotes : (String.intercalate "\t" texts).toList.filter (· != '"') =
      (String.intercalate "\t" texts).toList := by
    refine List.filter_eq_self.2 fun a ha => bne_iff_ne.2 ?_
    rcases hmem ha with rfl | ⟨t, ht, hat⟩
    · decide
    · exact (h t ht a hat).2.2.2
  have htabs : ∀ piece ∈ texts.map String.toList, '\t' ∉ piece := by
    intro piece hpiece hin
    obtain ⟨t, ht, rfl⟩ := List.mem_map.1 hpiece
    exact (h t ht _ hin).1 rfl
  rw [hquotes, String.toList_intercalate, Text.splitOn_eq]
  rw [show "\t".toList = ['\t'] from rfl, List.splitOn_intercalate '\t' htabs (by simpa using hne),
    List.map_map]
  simp

/-- A block of plain texts is read back from its text. -/
theorem textBlock_join {block : List (List String)} (hne : block ≠ [])
    (hrows : ∀ row ∈ block, row ≠ []) (h : ∀ row ∈ block, ∀ t ∈ row, Text.IsPlain t) :
    textBlock (String.intercalate "\n" (block.map (String.intercalate "\t"))) = block := by
  have hlines : Text.lines (String.intercalate "\n" (block.map (String.intercalate "\t"))).toList =
      block.map fun row => (String.intercalate "\t" row).toList := by
    rw [String.toList_intercalate, List.map_map]
    refine Text.lines_intercalate (by simpa using hne) fun row hrow a ha => ?_
    obtain ⟨texts, htexts, rfl⟩ := List.mem_map.1 hrow
    rw [Function.comp_apply, String.toList_intercalate] at ha
    -- A character of a row is a tab, or stands in a cell.
    rcases Text.mem_intercalate ha with rfl | ⟨piece, hpiece, hin⟩
    · decide
    · obtain ⟨t, ht, rfl⟩ := List.mem_map.1 hpiece
      have hplain := h texts htexts t ht a hin
      exact ⟨hplain.2.1, hplain.2.2.1⟩
  rw [textBlock, hlines, List.map_map]
  refine (List.map_congr_left fun row hrow => ?_).trans (List.map_id block)
  exact pieces_join (hrows row hrow) (h row hrow)

end Sheet

/-! ## Typing a block -/

namespace Rows

variable {s s' : Rows} {c p : CellRef}

/-- The text that a line has for a place. -/
def lineTextAt? (row col : Nat) (ts : List String) (p : CellRef) : Option String :=
  if p.row = row ∧ col ≤ p.col then ts[p.col - col]? else none

/-- The text that a block has for a place. -/
def textAt? (c : CellRef) (lines : List (List String)) (p : CellRef) : Option String :=
  if c.row ≤ p.row ∧ c.col ≤ p.col then
    (lines[p.row - c.row]?).bind fun ts => ts[p.col - c.col]?
  else none

/-- What typing leaves in a cell depends on that cell only. -/
theorem cell?_setText_congr (h : s'.cell? p = s.cell? p) (text : String) :
    (s'.setText p text).cell? p = (s.setText p text).cell? p := by
  rw [setText, setText, cell?_editCell, cell?_editCell, h]

theorem lineTextAt?_cons (row col : Nat) (t : String) (ts : List String) (p : CellRef) :
    lineTextAt? row col (t :: ts) p =
      if p = ⟨row, col⟩ then some t else lineTextAt? row (col + 1) ts p := by
  unfold lineTextAt?
  obtain ⟨i, j⟩ := p
  simp only [CellRef.mk.injEq]
  by_cases hrow : i = row
  · rcases Nat.lt_trichotomy j col with hlt | rfl | hgt
    · have hout : ¬col ≤ j ∧ ¬col + 1 ≤ j ∧ j ≠ col := by omega
      simp [hout]
    · simp [hrow]
    · have hin : col ≤ j ∧ col + 1 ≤ j ∧ j ≠ col := by omega
      have hnext : j - col = j - (col + 1) + 1 := by omega
      simp [hrow, hin, hnext]
  · simp [hrow]

theorem textAt?_cons (c : CellRef) (line : List String) (lines : List (List String))
    (p : CellRef) : textAt? c (line :: lines) p =
      if p.row = c.row then lineTextAt? c.row c.col line p
      else textAt? ⟨c.row + 1, c.col⟩ lines p := by
  unfold textAt? lineTextAt?
  rcases Nat.lt_trichotomy p.row c.row with hlt | heq | hgt
  · have hout : ¬c.row ≤ p.row ∧ ¬c.row + 1 ≤ p.row ∧ p.row ≠ c.row := by omega
    simp [hout]
  · simp [heq]
  · have hin : c.row ≤ p.row ∧ c.row + 1 ≤ p.row ∧ p.row ≠ c.row := by omega
    have hnext : p.row - c.row = p.row - (c.row + 1) + 1 := by omega
    simp [hin, hnext]

/-- A cell after a line was typed: it took the text that the line has for it, if any. -/
theorem cell?_typeLine (s : Rows) (row col : Nat) (ts : List String) (p : CellRef) :
    (s.typeLine row col ts).cell? p = match lineTextAt? row col ts p with
      | some t => (s.setText p t).cell? p
      | none => s.cell? p := by
  induction ts generalizing s col with
  | nil => simp [typeLine, lineTextAt?]
  | cons t ts ih =>
    rw [typeLine, ih, lineTextAt?_cons]
    by_cases hp : p = ⟨row, col⟩
    · -- The rest of the line goes further to the right.
      have hrest : lineTextAt? row (col + 1) ts p = none := if_neg fun h => by
        have hcol : p.col = col := congrArg CellRef.col hp
        omega
      rw [hrest, if_pos hp, ← hp]
    · rw [if_neg hp]
      cases lineTextAt? row (col + 1) ts p with
      | none => exact cell?_setText_of_ne hp t
      | some t' => exact cell?_setText_congr (cell?_setText_of_ne hp t) t'

/-- A cell after a block was typed: it took the text that the block has for it, if any. -/
theorem cell?_typeBlock (s : Rows) (c : CellRef) (lines : List (List String)) (p : CellRef) :
    (s.typeBlock c lines).cell? p = match textAt? c lines p with
      | some t => (s.setText p t).cell? p
      | none => s.cell? p := by
  induction lines generalizing s c with
  | nil => simp [typeBlock, textAt?]
  | cons line lines ih =>
    rw [typeBlock, ih, textAt?_cons]
    have hline := cell?_typeLine s c.row c.col line p
    by_cases hp : p.row = c.row
    · -- The other lines go further down.
      have hrest : textAt? ⟨c.row + 1, c.col⟩ lines p = none := if_neg fun h => by
        have hrow : c.row + 1 ≤ p.row := h.1
        omega
      rw [hrest, if_pos hp]
      exact hline
    · have hnone : lineTextAt? c.row c.col line p = none := if_neg fun h => hp h.1
      rw [hnone] at hline
      rw [if_neg hp]
      cases textAt? ⟨c.row + 1, c.col⟩ lines p with
      | none => exact hline
      | some t => exact cell?_setText_congr hline t

end Rows

namespace Sheet

open Rows

/-- The texts of the cells of a range, row by row. -/
def textsIn (s : Sheet) (r : Range) : List (List String) :=
  (List.range' r.top r.height).map fun row =>
    (List.range' r.left r.width).map fun col => s.rows.content ⟨row, col⟩

/-- The selected cells are read back from their text. -/
theorem textBlock_selectedText {s : Sheet} {r : Range} (h : s.selection.range = some r)
    (hplain : ∀ c, r.mem c = true → Text.IsPlain (s.rows.content c)) :
    textBlock s.selectedText = s.textsIn r := by
  have htext : s.selectedText =
      String.intercalate "\n" ((s.textsIn r).map (String.intercalate "\t")) := by
    simp only [selectedText, h, textsIn, List.map_map]
    rfl
  rw [htext]
  refine textBlock_join ?_ (fun row hrow => ?_) fun row hrow t ht => ?_
  · simp [textsIn, List.range'_eq_nil_iff, Range.height]
  · obtain ⟨i, -, rfl⟩ := List.mem_map.1 hrow
    simp [List.range'_eq_nil_iff, Range.width]
  · obtain ⟨i, hi, rfl⟩ := List.mem_map.1 hrow
    obtain ⟨j, hj, rfl⟩ := List.mem_map.1 ht
    rw [List.mem_range'_1] at hi hj
    refine hplain ⟨i, j⟩ (Range.mem_iff.2 ?_)
    have hbottom : i ≤ r.bottom := by
      have htop := r.top_le_bottom
      unfold Range.height at hi
      omega
    have hright : j ≤ r.right := by
      have hleft := r.left_le_right
      unfold Range.width at hj
      omega
    exact ⟨hi.1, hbottom, hj.1, hright⟩

/-- The texts of a range stand where a move of the range would take its cells. -/
theorem textAt?_movedTo (s : Sheet) {src dst : Range} {c : CellRef} (hc : src.mem c = true) :
    textAt? dst.first (s.textsIn src) (movedTo src dst c) = some (s.rows.content c) := by
  rw [Range.mem_iff] at hc
  have hrow : c.row - src.top < src.height := by
    unfold Range.height
    omega
  have hcol : c.col - src.left < src.width := by
    unfold Range.width
    omega
  have hplace : dst.first.row ≤ (movedTo src dst c).row ∧ dst.first.col ≤ (movedTo src dst c).col :=
    ⟨Nat.le_add_right _ _, Nat.le_add_right _ _⟩
  have hdown : (movedTo src dst c).row - dst.first.row = c.row - src.top :=
    Nat.add_sub_cancel_left _ _
  have hacross : (movedTo src dst c).col - dst.first.col = c.col - src.left :=
    Nat.add_sub_cancel_left _ _
  have hsource : (⟨src.top + (c.row - src.top), src.left + (c.col - src.left)⟩ : CellRef) = c := by
    obtain ⟨row, col⟩ := c
    rw [CellRef.mk.injEq]
    exact ⟨Nat.add_sub_cancel' hc.1, Nat.add_sub_cancel' hc.2.2.1⟩
  rw [textAt?, if_pos hplace, hdown, hacross, textsIn]
  simp [hrow, hcol, hsource]

/-- And nowhere else. -/
theorem textAt?_of_not_movedTo (s : Sheet) {src dst : Range} {p : CellRef}
    (h : ∀ c, src.mem c = true → movedTo src dst c ≠ p) :
    textAt? dst.first (s.textsIn src) p = none := by
  rw [textAt?]
  split
  · rename_i hplace
    obtain ⟨hrow, hcol⟩ : dst.top ≤ p.row ∧ dst.left ≤ p.col := hplace
    rw [Option.bind_eq_none_iff]
    intro line hline
    rw [textsIn, List.getElem?_map, Option.map_eq_some_iff] at hline
    obtain ⟨row, hget, rfl⟩ := hline
    obtain ⟨hdown, -⟩ := List.getElem?_eq_some_iff.1 hget
    rw [List.getElem?_eq_none_iff, List.length_map, List.length_range']
    rw [List.length_range'] at hdown
    by_contra hacross
    -- The place would be as far from the first one as some cell of the range is.
    have hdown : p.row - dst.top ≤ src.bottom - src.top := Nat.le_of_lt_succ hdown
    have hacross : p.col - dst.left ≤ src.right - src.left :=
      Nat.le_of_lt_succ (Nat.lt_of_not_le hacross)
    have htop := src.top_le_bottom
    have hleft := src.left_le_right
    refine h ⟨src.top + (p.row - dst.top), src.left + (p.col - dst.left)⟩
      (Range.mem_iff.2 ⟨Nat.le_add_right _ _, ?_, Nat.le_add_right _ _, ?_⟩) ?_
    · show src.top + (p.row - dst.top) ≤ src.bottom
      omega
    · show src.left + (p.col - dst.left) ≤ src.right
      omega
    · simp only [movedTo, Nat.add_sub_cancel_left, Nat.add_sub_cancel' hrow,
        Nat.add_sub_cancel' hcol]
  · rfl

/-- The selected cells of a sheet, which are free of tabs, newlines, carriage returns and
    double quotes, are taken as text, and the text is pasted at the selection of a sheet, the
    same one or another. If this sheet is open to changes and has no locked cell where the
    text goes, then every selected cell finds its text at the place to which a move of the
    selection would take it, and no other cell is changed. A sheet that is open for reading
    only stays as it is. -/
theorem pasteText_selectedText (s t : Sheet) {src dst : Range}
    (hsrc : s.selection.range = some src) (hdst : t.selection.range = some dst)
    (hplain : ∀ c, src.mem c = true → Text.IsPlain (s.rows.content c))
    (hopen : ∀ c, src.mem c = true → ¬t.rows.IsLocked (movedTo src dst c)) :
    let pasted := t.pasteText s.selectedText
    (t.isWritable = true → pasted.2 = .applied ∧
      (∀ c, src.mem c = true →
        pasted.1.rows.content (movedTo src dst c) = s.rows.content c) ∧
      ∀ p, (∀ c, src.mem c = true → movedTo src dst c ≠ p) →
        pasted.1.rows.cell? p = t.rows.cell? p) ∧
    (t.isWritable = false → pasted = (t, .ignored)) := by
  intro pasted
  have hblock : textBlock s.selectedText = s.textsIn src := textBlock_selectedText hsrc hplain
  have hpasted : pasted = t.commit fun t =>
      { t with rows := t.rows.typeBlock dst.first (s.textsIn src) } := by
    simp only [pasted, pasteText, commitOnSelection, hdst, hblock]
  refine ⟨fun hwritable => ?_, fun hwritable => ?_⟩
  · have hrows : pasted.1.rows = t.rows.typeBlock dst.first (s.textsIn src) := by
      rw [hpasted, commit, if_pos hwritable]
      rfl
    refine ⟨?_, fun c hc => ?_, fun p hp => ?_⟩
    · rw [hpasted, commit, if_pos hwritable]
    · have hcell := cell?_typeBlock t.rows dst.first (s.textsIn src) (movedTo src dst c)
      rw [textAt?_movedTo s hc] at hcell
      have hcontent := content_setText_of_not_isLocked (hopen c hc) (s.rows.content c)
      rw [content, hrows, hcell]
      exact hcontent
    · rw [hrows, cell?_typeBlock, textAt?_of_not_movedTo s hp]
  · rw [hpasted, commit, if_neg (by rw [hwritable]; decide)]

/-- Two texts at the corners of a square, and one beside it. -/
def cornered : Sheet := (new "" {}).runAll [.typeText ⟨0, 0⟩ "a" .finished,
  .typeText ⟨1, 1⟩ "b" .finished, .typeText ⟨0, 2⟩ "c" .finished]

/-- The square is carried to the place beside it, with its empty cells. -/
theorem pasteText_selectedText_cornered :
    let s := cornered.select (.between ⟨0, 0⟩ ⟨1, 1⟩)
    let t := cornered.select (.single ⟨0, 2⟩)
    let pasted := t.pasteText s.selectedText
    pasted.2 = .applied ∧ pasted.1.rows.content ⟨0, 2⟩ = "a" ∧ pasted.1.rows.content ⟨0, 3⟩ = "" ∧
      pasted.1.rows.content ⟨1, 2⟩ = "" ∧ pasted.1.rows.content ⟨1, 3⟩ = "b" ∧
      pasted.1.rows.cell? ⟨1, 1⟩ = t.rows.cell? ⟨1, 1⟩ := by
  intro s t pasted
  have hplain : ∀ c ∈ (Range.between ⟨0, 0⟩ ⟨1, 1⟩).cells, Text.IsPlain (s.rows.content c) := by
    decide
  have hunlocked : ∀ c, ¬t.rows.IsLocked c := not_isLocked_of_cells (by decide)
  have hsrc : s.selection.range = some (.between ⟨0, 0⟩ ⟨1, 1⟩) := rfl
  have hdst : t.selection.range = some (.single ⟨0, 2⟩) := rfl
  obtain ⟨hcarried, -⟩ := pasteText_selectedText s t hsrc hdst
    (fun c hc => hplain c (Range.mem_cells_iff.2 hc)) fun c _ => hunlocked _
  obtain ⟨happlied, htexts, hothers⟩ := hcarried (by decide)
  refine ⟨happlied, ?_, ?_, ?_, ?_, hothers ⟨1, 1⟩ fun c _ hto => ?_⟩
  · exact (htexts ⟨0, 0⟩ (by decide)).trans (by decide)
  · exact (htexts ⟨0, 1⟩ (by decide)).trans (by decide)
  · exact (htexts ⟨1, 0⟩ (by decide)).trans (by decide)
  · exact (htexts ⟨1, 1⟩ (by decide)).trans (by decide)
  · have hcol : 2 + (c.col - 0) = 1 := congrArg CellRef.col hto
    omega

/-- A sheet that is open for reading only takes no text, whatever its cells are like. -/
theorem pasteText_selectedText_read_only :
    ¬∀ (s t : Sheet) (src dst : Range), s.selection.range = some src →
      t.selection.range = some dst →
      (∀ c, src.mem c = true → Text.IsPlain (s.rows.content c)) →
      (∀ c, src.mem c = true → ¬t.rows.IsLocked (movedTo src dst c)) →
      ∀ c, src.mem c = true →
        (t.pasteText s.selectedText).1.rows.content (movedTo src dst c) = s.rows.content c := by
  intro h
  let opened : Sheet := (new "" { mode := .read }).restore cornered.snapshot
  have hplain : ∀ c ∈ (Range.single ⟨0, 0⟩).cells, Text.IsPlain (opened.rows.content c) := by
    decide
  have hunlocked : ∀ c, ¬opened.rows.IsLocked c := not_isLocked_of_cells (by decide)
  have hcarried := h (opened.select (.single ⟨0, 0⟩)) (opened.select (.single ⟨0, 1⟩)) _ _ rfl rfl
    (fun c hc => hplain c (Range.mem_cells_iff.2 hc)) (fun c _ => hunlocked _) ⟨0, 0⟩ (by decide)
  revert hcarried
  decide

end Sheet

end Worksheet
