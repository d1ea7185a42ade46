import Mathlib.Data.List.Nodup
import Mathlib.Data.Nat.Nth
import Worksheet.Proofs.Filter.Presenting
import Worksheet.Proofs.Sheet.Viewing

/-!
# Windows of Rows

The rows that are drawn in windows that follow each other.

A window goes from one shown row to another, and both are given by how many shown rows come
before them. To find the stored row to start with, the hidden rows above have to be added.
Those that are added are the hidden rows below the *given number*, and with them the start
moves past further rows, some of which may be hidden as well. These are overlooked. So a
window starts with a row that is shown earlier than asked for, by as many rows as were
overlooked.

From there on nothing goes wrong: every hidden row that is met moves the end by one, and as
many rows are drawn as were asked for. A window that starts at the top has nothing above it,
and is right. Any other window begins with rows that the window before it has ended with,
and ends too early, unless the start moves past shown rows only.

## Main definitions

* `Sheet.shownRow`: The shown rows, by how many come before.
* `Sheet.drawnRows`: The rows that are drawn in a window.
* `Sheet.overlooked`: The hidden rows that the start of a window moves past.

## Theorems

* `map_index_visit`: A walk draws the shown rows, one after the other.
* `Sheet.count_add_hiddenBefore`: A row is shown, or hidden.
* `Sheet.drawnRows_eq`: A window begins too early by the rows that are overlooked.
* `Sheet.drawnRows_append_iff`: When two windows make one.
-/

namespace Worksheet

/-! ## Walking -/

section Walk

variable {size : Nat → Float} {hidden : List Nat} {limit : Float}

/-- With every row, the hidden rows above are more by the row itself. -/
theorem length_filter_lt_succ (hidden : List Nat) (i : Nat) :
    (hidden.filter (· < i + 1)).length = (hidden.filter (· < i)).length + hidden.count i := by
  induction hidden with
  | nil => rfl
  | cons j hidden ih =>
    rw [List.filter_cons, List.filter_cons, List.count_cons]
    rcases Nat.lt_trichotomy j i with hlt | rfl | hgt
    · have hin : j < i ∧ j < i + 1 ∧ j ≠ i := by omega
      simp only [hin, decide_true, if_true, List.length_cons, ih, beq_iff_eq, if_false]
      omega
    · simp only [Nat.lt_irrefl, Nat.lt_succ_self, decide_true, decide_false, if_true,
        Bool.false_eq_true, if_false, List.length_cons, ih, beq_self_eq_true]
      omega
    · have hout : ¬j < i ∧ ¬j < i + 1 ∧ j ≠ i := by omega
      simpa [hout] using ih

/-- A walk that never fills the screen draws as many shown rows as it was asked for, one after
    the other from the first one that it meets. It needs one step for each of them, and one
    for every hidden row that is not above. -/
theorem map_index_visit (hsize : ∀ i, 0.0 < size i) (fuel i stop : Nat) (offset : Float)
    (hfuel : stop + 1 - i + hidden.length ≤ fuel + (hidden.filter (· < i)).length)
    (hfit : ∀ l ∈ visit size hidden.contains limit fuel i stop offset,
      ¬limit < l.offset + l.size) :
    (visit size hidden.contains limit fuel i stop offset).map Line.index =
      (List.range' (Nat.count (· ∉ hidden) i) (stop + 1 - i)).map (Nat.nth (· ∉ hidden)) := by
  induction fuel generalizing i stop offset with
  | zero =>
    have hall := List.length_filter_le (· < i) hidden
    have hdone : stop + 1 - i = 0 := by omega
    rw [hdone]
    rfl
  | succ fuel ih =>
    have hstep := length_filter_lt_succ hidden i
    rw [visit] at hfit ⊢
    by_cases hstop : stop < i
    · have hdone : stop + 1 - i = 0 := by omega
      rw [if_pos hstop, hdone]
      rfl
    rw [if_neg hstop] at hfit ⊢
    by_cases hskip : i ∈ hidden
    · -- A hidden row: nothing is drawn, and as many rows remain.
      have hcontains : hidden.contains i = true := List.contains_iff_mem.2 hskip
      have hcount : Nat.count (· ∉ hidden) (i + 1) = Nat.count (· ∉ hidden) i :=
        Nat.count_succ_eq_count (not_not_intro hskip)
      have hleft : stop + 1 + 1 - (i + 1) = stop + 1 - i := Nat.add_sub_add_right _ _ _
      have hmet : 0 < hidden.count i := List.count_pos_iff.2 hskip
      rw [if_pos hcontains] at hfit ⊢
      rw [ih (i + 1) (stop + 1) offset (by omega) hfit, hcount, hleft]
    · -- A shown row: it is drawn, and it is the next one to be drawn.
      have hcontains : ¬hidden.contains i = true := mt List.contains_iff_mem.1 hskip
      have hcount : Nat.count (· ∉ hidden) (i + 1) = Nat.count (· ∉ hidden) i + 1 :=
        Nat.count_succ_eq_succ_count hskip
      have hleft : stop + 1 - i = stop + 1 - (i + 1) + 1 := by omega
      simp only [if_neg hcontains, if_pos (hsize i)] at hfit ⊢
      have hgoes := hfit ⟨i, offset, size i⟩ List.mem_cons_self
      rw [if_neg hgoes] at hfit ⊢
      rw [List.map_cons, hleft, List.range'_succ, List.map_cons, ← hcount,
        ih (i + 1) stop (offset + size i) (by omega) fun l hl => hfit l (List.mem_cons_of_mem _ hl),
        Nat.nth_count hskip]

end Walk

namespace Sheet

variable {s : Sheet} {first last k m : Nat} {limit : Float}

/-- The shown rows from the top, by how many shown rows come before. -/
noncomputable def shownRow (s : Sheet) (n : Nat) : Nat := Nat.nth (· ∉ s.view.hidden) n

/-- The rows that are drawn in a window. -/
def drawnRows (s : Sheet) (first last : Nat) (limit : Float) : List Nat :=
  (s.visitRows first last limit).map Line.index

/-- Does a window never fill the screen? -/
def Fits (s : Sheet) (first last : Nat) (limit : Float) : Prop :=
  ∀ l ∈ s.visitRows first last limit, ¬limit < l.offset + l.size

instance (s : Sheet) (first last : Nat) (limit : Float) : Decidable (s.Fits first last limit) :=
  inferInstanceAs (Decidable (∀ l ∈ s.visitRows first last limit, ¬limit < l.offset + l.size))

/-- How many rows are hidden above a row. -/
def hiddenBefore (s : Sheet) (i : Nat) : Nat := (s.view.hidden.filter (· < i)).length

/-- The hidden rows that the start of a window moves past. -/
def overlooked (s : Sheet) (first : Nat) : List Nat :=
  s.view.hidden.filter fun i => first ≤ i ∧ i < first + s.hiddenBefore first

/-! ## Counting -/

/-- In every state of every session no row is hidden twice. -/
theorem nodup_hidden_actAll (name : String) (settings : Settings) (actions : List Action) :
    ((new name settings).actAll actions).view.hidden.Nodup := by
  obtain ⟨a, text, hview, -, -⟩ := viewOfFilter_actAll name settings actions
  rw [hview]
  exact ((AutoFilter.pairwise_dataRows a).imp Nat.ne_of_lt).filter _

/-- Every row above a row is shown or hidden. -/
theorem count_add_hiddenBefore (hnodup : s.view.hidden.Nodup) (i : Nat) :
    Nat.count (· ∉ s.view.hidden) i + s.hiddenBefore i = i := by
  induction i with
  | zero => simp [hiddenBefore]
  | succ i ih =>
    have hstep := length_filter_lt_succ s.view.hidden i
    rw [hnodup.count] at hstep
    rw [Nat.count_succ]
    unfold hiddenBefore at ih ⊢
    by_cases h : i ∈ s.view.hidden
    · rw [if_pos h] at hstep
      rw [if_neg (not_not_intro h)]
      omega
    · rw [if_neg h] at hstep
      rw [if_pos h]
      omega

/-- The hidden rows above the start of a window are those that were added to it and those that
    are overlooked. -/
theorem hiddenBefore_start (s : Sheet) (first : Nat) :
    s.hiddenBefore (first + s.hiddenBefore first) =
      s.hiddenBefore first + (s.overlooked first).length := by
  have hsplit := List.length_eq_length_filter_add
    (l := s.view.hidden.filter (· < first + s.hiddenBefore first)) (· < first)
  rw [List.filter_filter, List.filter_filter] at hsplit
  have habove : s.view.hidden.filter
      (fun i => decide (i < first) && decide (i < first + s.hiddenBefore first)) =
      s.view.hidden.filter (· < first) := by
    refine List.filter_congr fun i _ => ?_
    rw [← Bool.decide_and, decide_eq_decide]
    omega
  have hover : s.view.hidden.filter
      (fun i => !decide (i < first) && decide (i < first + s.hiddenBefore first)) =
      s.overlooked first := by
    refine List.filter_congr fun i _ => ?_
    rw [← decide_not, ← Bool.decide_and, decide_eq_decide, Nat.not_lt]
  rw [habove, hover] at hsplit
  exact hsplit

/-- A window starts as many shown rows too early as rows are overlooked. -/
theorem count_start (hnodup : s.view.hidden.Nodup) (first : Nat) :
    Nat.count (· ∉ s.view.hidden) (first + s.hiddenBefore first) =
      first - (s.overlooked first).length := by
  have hall := count_add_hiddenBefore hnodup (first + s.hiddenBefore first)
  rw [hiddenBefore_start] at hall
  omega

theorem overlooked_zero (s : Sheet) : s.overlooked 0 = [] := by
  have hnone : s.hiddenBefore 0 = 0 := by simp [hiddenBefore]
  simp [overlooked, hnone]

/-- Infinitely many rows are shown. -/
theorem shownRow_strictMono (s : Sheet) : StrictMono s.shownRow :=
  Nat.nth_strictMono s.view.hidden.finite_toSet.infinite_compl

theorem exists_shownRow_iff (s : Sheet) (i : Nat) :
    (∃ n, s.shownRow n = i) ↔ s.view.isHidden i = false := by
  rw [RowView.isHidden_eq_false_iff]
  constructor
  · rintro ⟨n, rfl⟩
    exact Nat.nth_mem_of_infinite s.view.hidden.finite_toSet.infinite_compl n
  · exact fun h => ⟨_, Nat.nth_count h⟩

/-! ## Windows -/

/-- A window that never fills the screen has as many rows as it was asked for, from the shown
    row that comes too early by the rows that are overlooked. -/
theorem drawnRows_eq (hnodup : s.view.hidden.Nodup) (hsize : ∀ i, 0.0 < s.rowHeight i)
    (hfit : s.Fits first last limit) :
    s.drawnRows first last limit =
      (List.range' (first - (s.overlooked first).length) (last + 1 - first)).map s.shownRow := by
  have hasked : last + s.hiddenBefore first + 1 - (first + s.hiddenBefore first) =
      last + 1 - first := by omega
  have hfuel : last + s.hiddenBefore first + 1 - (first + s.hiddenBefore first) +
      s.view.hidden.length ≤ last + 1 - first + s.view.hidden.length +
        (s.view.hidden.filter (· < first + s.hiddenBefore first)).length := by
    rw [hasked]
    exact Nat.le_add_right _ _
  have hdrawn := map_index_visit hsize _ _ _ 0.0 hfuel hfit
  rw [hasked, count_start hnodup] at hdrawn
  exact hdrawn

/-- A window from the top draws the shown rows in order. -/
theorem drawnRows_zero (hnodup : s.view.hidden.Nodup) (hsize : ∀ i, 0.0 < s.rowHeight i)
    (hfit : s.Fits 0 last limit) :
    s.drawnRows 0 last limit = (List.range (last + 1)).map s.shownRow := by
  rw [drawnRows_eq hnodup hsize hfit, overlooked_zero, List.range_eq_range']
  rfl

/-- The rows of a sheet are drawn in two windows, the second of which begins where the first
    one ends, and no window fills the screen. A window from the top draws the shown rows in
    order. The second window draws as many rows as it should, but from a row that comes too
    early by the rows that its start overlooked. So it repeats the last rows of the first
    window, and misses as many rows at the end. The two windows draw what one window would
    exactly if nothing is overlooked. -/
theorem drawnRows_append_iff (s : Sheet) (limit : Float) (hnodup : s.view.hidden.Nodup)
    (hsize : ∀ i, 0.0 < s.rowHeight i) (hkm : k < m) (hfirst : s.Fits 0 k limit)
    (hsecond : s.Fits (k + 1) m limit) (hboth : s.Fits 0 m limit) :
    let late := (s.overlooked (k + 1)).length
    StrictMono s.shownRow ∧ (∀ i, (∃ n, s.shownRow n = i) ↔ s.view.isHidden i = false) ∧
    s.drawnRows 0 k limit = (List.range (k + 1)).map s.shownRow ∧
    s.drawnRows 0 m limit = (List.range (m + 1)).map s.shownRow ∧
    s.drawnRows (k + 1) m limit = (List.range' (k + 1 - late) (m - k)).map s.shownRow ∧
    (s.drawnRows 0 k limit ++ s.drawnRows (k + 1) m limit = s.drawnRows 0 m limit ↔
      s.overlooked (k + 1) = []) := by
  intro late
  have hone : s.drawnRows 0 k limit = (List.range (k + 1)).map s.shownRow :=
    drawnRows_zero hnodup hsize hfirst
  have hall : s.drawnRows 0 m limit = (List.range (m + 1)).map s.shownRow :=
    drawnRows_zero hnodup hsize hboth
  have hother : s.drawnRows (k + 1) m limit =
      (List.range' (k + 1 - late) (m - k)).map s.shownRow := by
    rw [drawnRows_eq hnodup hsize hsecond, Nat.add_sub_add_right]
  refine ⟨shownRow_strictMono s, exists_shownRow_iff s, hone, hall, hother, ?_⟩
  have hcut : List.range (m + 1) = List.range (k + 1) ++ List.range' (k + 1) (m - k) := by
    have hjoin := @List.range'_append_1 0 (k + 1) (m - k)
    have hlength : k + 1 + (m - k) = m + 1 := by omega
    rw [Nat.zero_add, hlength] at hjoin
    rw [List.range_eq_range', List.range_eq_range', hjoin]
  rw [hone, hother, hall, hcut, List.map_append, List.append_cancel_left_eq,
    (List.map_injective_iff.2 (shownRow_strictMono s).injective).eq_iff]
  -- Windows of the same length are the same if they begin with the same row.
  rw [List.range'_inj, ← List.length_eq_zero_iff]
  omega

/-- The rows that have nothing of their own have the height that all rows begin with. -/
theorem rowHeight_pos_of_entries (hdefault : 0.0 < s.settings.rows.height)
    (hrows : ∀ e ∈ s.rows.rows.entries, 0.0 < s.rowHeight e.1) (i : Nat) :
    0.0 < s.rowHeight i := by
  cases hrow : s.rows.row? i with
  | none =>
    rw [rowHeight, Rows.height, hrow]
    exact hdefault
  | some r => exact hrows (i, r) (SparseMap.get?_eq_some_iff.1 hrow)

/-- A header and three rows, of which a filter hides the first two. -/
def headed : List Action :=
  [.run (.typeText ⟨0, 0⟩ "h" .finished), .run (.typeText ⟨1, 0⟩ "y" .finished),
    .run (.typeText ⟨2, 0⟩ "y" .finished), .run (.typeText ⟨3, 0⟩ "x" .finished),
    .run (.select (.between ⟨0, 0⟩ ⟨3, 0⟩)), .run .toggleFilter,
    .run (.setFilter 0 none .oneOf ["x"])]

/-- The start of the second window moves past a hidden row, and finds another one there. -/
theorem drawnRows_append_headed :
    let s := (new "" {}).actAll headed
    s.drawnRows 0 1 1000.0 = [0, 3] ∧ s.overlooked 2 = [2] ∧
      s.drawnRows 2 2 1000.0 = [s.shownRow 1] ∧
      s.drawnRows 0 1 1000.0 ++ s.drawnRows 2 2 1000.0 ≠ s.drawnRows 0 2 1000.0 := by
  intro s
  have hover : s.overlooked 2 = [2] := by decide
  have hsize : ∀ i, 0.0 < s.rowHeight i :=
    rowHeight_pos_of_entries (by decide) (by decide)
  obtain ⟨-, -, -, -, hsecond, hiff⟩ := drawnRows_append_iff s 1000.0 (k := 1) (m := 2)
    (nodup_hidden_actAll "" {} headed) hsize (by decide) (by decide) (by decide)
    (by decide)
  rw [hover] at hsecond hiff
  exact ⟨by decide, hover, hsecond, fun h => List.cons_ne_nil _ _ (hiff.1 h)⟩

end Sheet

end Worksheet
