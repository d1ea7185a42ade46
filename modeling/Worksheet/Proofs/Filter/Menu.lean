import Mathlib.Algebra.Ring.Nat
import Worksheet.Filter.RowView

/-!
# The Menu of a Filter

What the counts in the menu of a filter say about the rows.

The menu counts the texts of a column, and a filter for one of them shows the rows with
that text. The two go over the same rows, but not with the same idea of a text. A cell of
nothing but blanks is counted under the empty text, and a filter for the empty text shows
empty cells only. So the count of the empty text is too high by the cells that are
blank and not empty, and there is no text in the menu that shows them. All other counts are
the numbers of rows that are shown.

Counting one more text raises the count of that text and no other, wherever the text has
its place in the list. What is counted under texts of any kind is therefore the number of
cells with such a text, whether or not the list is in order. The order is needed to
see that a text has one entry.

## Main definitions

* `menuText`: The text under which a cell is counted.
* `countOf`: What is counted under texts of some kind.
* `AutoFilter.only`: A filter for one text of a column.
* `AutoFilter.blankRows`: The rows with a cell that is blank and not empty.

## Theorems

* `countOf_countText`, `pairwise_countText`: One more text.
* `AutoFilter.countOf_items`: The menu counts the rows with a text.
* `AutoFilter.items_shown`: What a count says about the rows that are shown.
-/

namespace Worksheet

/-- The text under which a cell is counted. -/
def menuText (s : String) : String := if Text.isAllBlank s then "" else s

/-- The sum of what is counted under texts of some kind. -/
def countOf (kind : String → Bool) (counts : List (String × Nat)) : Nat :=
  ((counts.filter fun e => kind e.1).map Prod.snd).sum

namespace AutoFilter

variable {counts : List (String × Nat)} {kind : String → Bool} {s v : String}

/-! ## One more text -/

theorem countOf_cons (e : String × Nat) :
    countOf kind (e :: counts) = (if kind e.1 then e.2 else 0) + countOf kind counts := by
  unfold countOf
  rw [List.filter_cons]
  split
  · rw [List.map_cons, List.sum_cons]
  · rw [Nat.zero_add]

/-- One more text is counted once. -/
theorem countOf_countText (s : String) (counts : List (String × Nat)) :
    countOf kind (countText s counts) = countOf kind counts + if kind s then 1 else 0 := by
  induction counts with
  | nil => rw [countText, countOf_cons, Nat.add_comm]
  | cons e counts ih =>
    obtain ⟨t, n⟩ := e
    rw [countText]
    by_cases heq : s = t
    · subst heq
      rw [if_pos rfl, countOf_cons, countOf_cons]
      split <;> omega
    · rw [if_neg heq]
      by_cases hlt : s < t
      · rw [if_pos hlt, countOf_cons, Nat.add_comm]
      · rw [if_neg hlt, countOf_cons, countOf_cons, ih, Nat.add_assoc]

theorem mem_countText {e : String × Nat} (h : e ∈ countText s counts) :
    e.1 = s ∨ e ∈ counts := by
  induction counts with
  | nil => exact .inl (congrArg Prod.fst (List.mem_singleton.1 h))
  | cons d counts ih =>
    obtain ⟨t, n⟩ := d
    rw [countText] at h
    split at h
    · rename_i heq
      rcases List.mem_cons.1 h with rfl | h
      · exact .inl heq.symm
      · exact .inr (List.mem_cons_of_mem _ h)
    · split at h
      · rcases List.mem_cons.1 h with rfl | h
        · exact .inl rfl
        · exact .inr h
      · rcases List.mem_cons.1 h with rfl | h
        · exact .inr List.mem_cons_self
        · exact (ih h).imp_right (List.mem_cons_of_mem _)

/-- The list stays in the order of its texts. -/
theorem pairwise_countText (h : counts.Pairwise fun d e => d.1 < e.1) (s : String) :
    (countText s counts).Pairwise fun d e => d.1 < e.1 := by
  induction counts with
  | nil => exact List.pairwise_singleton _ _
  | cons d counts ih =>
    obtain ⟨t, n⟩ := d
    obtain ⟨hhead, htail⟩ := List.pairwise_cons.1 h
    rw [countText]
    split
    · exact List.pairwise_cons.2 ⟨hhead, htail⟩
    · rename_i hne
      split
      · rename_i hlt
        refine List.pairwise_cons.2 ⟨fun e he => ?_, h⟩
        rcases List.mem_cons.1 he with rfl | he
        · exact hlt
        · exact String.lt_trans hlt (hhead e he)
      · rename_i hnot
        -- The text is neither this one nor before it.
        have hlt : t < s := Std.lt_of_le_of_ne hnot fun heq => hne heq.symm
        refine List.pairwise_cons.2 ⟨fun e he => ?_, ih htail⟩
        rcases mem_countText he with heq | he
        · rw [heq]
          exact hlt
        · exact hhead e he

/-- In a list in order, a text has one entry. -/
theorem countOf_of_mem (h : counts.Pairwise fun d e => d.1 < e.1) {e : String × Nat}
    (he : e ∈ counts) : countOf (· == e.1) counts = e.2 := by
  have hnone {d : String × Nat} {counts : List (String × Nat)} (hlt : ∀ e ∈ counts, d.1 < e.1) :
      countOf (· == d.1) counts = 0 := by
    have hempty : (counts.filter fun e => e.1 == d.1) = [] := by
      refine List.filter_eq_nil_iff.2 fun e he => ?_
      rw [beq_iff_eq]
      intro heq
      exact String.lt_irrefl _ (heq ▸ hlt e he)
    rw [countOf, hempty]
    rfl
  induction counts with
  | nil => cases he
  | cons d counts ih =>
    obtain ⟨hhead, htail⟩ := List.pairwise_cons.1 h
    rw [countOf_cons]
    rcases List.mem_cons.1 he with rfl | he
    · rw [hnone hhead, if_pos (beq_self_eq_true _), Nat.add_zero]
    · have hne : d.1 ≠ e.1 := fun heq => String.lt_irrefl _ (heq ▸ hhead e he)
      rw [if_neg (by simpa using hne), ih htail he, Nat.zero_add]

/-! ## All rows -/

variable (a : AutoFilter) (col : Nat) (text : CellRef → String)

/-- The menu counts the rows under the header by the texts under which their cells are
    counted. -/
theorem countOf_items (kind : String → Bool) :
    countOf kind (a.items col text) =
      a.dataRows.countP fun row => kind (menuText (text ⟨row, col⟩)) := by
  have hrun (rows : List Nat) (counts : List (String × Nat)) :
      countOf kind (rows.foldl (fun counts row =>
        countText (menuText (text ⟨row, col⟩)) counts) counts) =
        countOf kind counts + rows.countP fun row => kind (menuText (text ⟨row, col⟩)) := by
    induction rows generalizing counts with
    | nil => rfl
    | cons row rows ih =>
      rw [List.foldl_cons, ih, countOf_countText, List.countP_cons]
      omega
  exact (hrun a.dataRows []).trans (Nat.zero_add _)

theorem pairwise_items : (a.items col text).Pairwise fun d e => d.1 < e.1 :=
  List.foldlRecOn (motive := fun counts : List (String × Nat) =>
    counts.Pairwise fun d e => d.1 < e.1) _ _ .nil fun _ h _ _ => pairwise_countText h _

/-- Every entry is about the text that some cell is counted under. -/
theorem exists_menuText {e : String × Nat} (he : e ∈ a.items col text) :
    ∃ s, e.1 = menuText s := by
  revert he
  refine List.foldlRecOn (motive := fun counts : List (String × Nat) =>
    e ∈ counts → ∃ s, e.1 = menuText s) _ _ nofun fun counts ih row _ he => ?_
  rcases mem_countText he with heq | he
  · exact ⟨_, heq⟩
  · exact ih he

/-- All counts together are the number of rows under the header. -/
theorem sum_items : ((a.items col text).map Prod.snd).sum = a.dataRows.length := by
  have hall := countOf_items a col text fun _ => true
  rw [List.countP_true] at hall
  rw [← hall, countOf, List.filter_eq_self.2 fun _ _ => rfl]

/-! ## Filters for one text -/

/-- The filter that shows the rows with one text in a column. -/
def only (v : String) : AutoFilter := { a with filters := [⟨col, .oneOf, [v]⟩] }

/-- The rows under the header whose cell in a column is blank and not empty. -/
def blankRows : List Nat :=
  a.dataRows.filter fun row => Text.isAllBlank (text ⟨row, col⟩) && text ⟨row, col⟩ != ""

theorem length_visibleRows_only (v : String) :
    ((a.only col v).visibleRows text).length =
      a.dataRows.countP fun row => text ⟨row, col⟩ == v := by
  have haccepts : (a.only col v).accepts text = fun row => text ⟨row, col⟩ == v := by
    funext row
    rw [Bool.eq_iff_iff]
    simp [only, accepts, Filter.accepts]
  rw [visibleRows, haccepts, ← List.countP_eq_length_filter]
  rfl

/-- Only blank cells are counted under the empty text. -/
theorem menuText_eq_empty_iff : menuText s = "" ↔ Text.isAllBlank s = true := by
  unfold menuText
  split
  · rename_i hblank
    exact iff_of_true rfl hblank
  · rename_i hblank
    refine iff_of_false (fun hempty => hblank ?_) hblank
    rw [hempty]
    rfl

/-- Under another text only cells with that text are counted. -/
theorem menuText_eq_iff {t : String} (ht : menuText t ≠ "") :
    menuText s = menuText t ↔ s = menuText t := by
  have hkeep {s : String} (hs : menuText s ≠ "") : menuText s = s :=
    if_neg (mt menuText_eq_empty_iff.2 hs)
  rw [hkeep ht]
  constructor
  · intro h
    rw [← h, hkeep]
    rwa [h, ← hkeep ht]
  · rintro rfl
    exact hkeep ht

/-- The counts of the menu of a column add up to the number of rows under the header, and
    every text has one entry, in order. A filter for a text of the menu shows as many rows
    as were counted under it, but for the empty text: there the cells are counted as well
    that are blank and not empty, and these it does not show. -/
theorem items_shown :
    ((a.items col text).map Prod.snd).sum = a.dataRows.length ∧
      ((a.items col text).Pairwise fun d e => d.1 < e.1) ∧
      ∀ e ∈ a.items col text, e.2 = ((a.only col e.1).visibleRows text).length +
        if e.1 = "" then (a.blankRows col text).length else 0 := by
  refine ⟨sum_items a col text, pairwise_items a col text, fun e he => ?_⟩
  have hcount : e.2 = a.dataRows.countP fun row => menuText (text ⟨row, col⟩) == e.1 := by
    rw [← countOf_of_mem (pairwise_items a col text) he, countOf_items]
  obtain ⟨t, ht⟩ := exists_menuText a col text he
  rw [hcount, length_visibleRows_only]
  split
  · rename_i hempty
    -- A cell that is counted is empty, or it is blank and not empty.
    rw [blankRows, ← List.countP_eq_length_filter,
      List.countP_eq_countP_filter_add a.dataRows _ fun row => text ⟨row, col⟩ == "",
      List.countP_filter, List.countP_filter, hempty]
    congr 1
    · refine List.countP_congr fun row _ => ?_
      simp only [Bool.and_eq_true, beq_iff_eq, menuText_eq_empty_iff]
      exact ⟨fun h => h.2, fun h => ⟨by rw [h]; rfl, h⟩⟩
    · refine List.countP_congr fun row _ => ?_
      simp only [Bool.and_eq_true, beq_iff_eq, menuText_eq_empty_iff, bne]
  · rename_i hne
    rw [ht] at hne ⊢
    refine List.countP_congr fun row _ => ?_
    rw [beq_iff_eq, beq_iff_eq, menuText_eq_iff hne]

/-- A blank and nothing under the header are counted under the empty text, and a filter
    for it shows the latter only. -/
theorem items_shown_blank :
    let a : AutoFilter := { range := some (.between ⟨0, 0⟩ ⟨2, 0⟩) }
    let text (c : CellRef) : String := if c.row = 1 then " " else ""
    ("", 2) ∈ a.items 0 text ∧ ((a.only 0 "").visibleRows text).length = 1 ∧
      2 = ((a.only 0 "").visibleRows text).length + (a.blankRows 0 text).length := by
  intro a text
  have hmem : ("", 2) ∈ a.items 0 text := by decide
  obtain ⟨-, -, hcounts⟩ := items_shown a 0 text
  refine ⟨hmem, by decide, ?_⟩
  have hcount := hcounts ("", 2) hmem
  rwa [if_pos rfl] at hcount

end AutoFilter

end Worksheet
