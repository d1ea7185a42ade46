import Mathlib.Data.List.Nodup
import Mathlib.Data.List.Pairwise
import Mathlib.Data.Set.Function
import Worksheet.Filter.RowView

/-!
# Rows and Their Positions

The row view as a permutation of the rows of a sheet.

A view lists positions, each with the row that is shown there, and both ways of reading
it look something up in this list. What is not listed is where it is stored. Three
things make the two ways inverse to each other. No position is listed twice, no row is
listed twice, and what is listed as a position is listed as a row as well. The last one
is what keeps a row that is not listed from being shown at its own place and at the
place of a listed one: if the list had a position that is no row of it, the row stored
there would be shown nowhere.

The view of a filter lists the rows that pass, beside the same rows in the order they
are shown in. As rows that pass are found from the top down, their positions increase
along the list, and the rows increase or decrease with them.

## Main definitions

* `RowView.WellPlaced`: The three things.
* `RowView.turned`: The view read the other way.
* `AutoFilter.IsData`, `AutoFilter.Passes`: The rows that a filter looks at, and those that pass.

## Theorems

* `RowView.toView_toStorage`, `RowView.toStorage_toView`: Both ways are inverse.
* `AutoFilter.wellPlaced_rowView`: The view of a filter is well placed.
* `AutoFilter.rowView_permutes`: What the view of a filter does.
-/

namespace Worksheet

/-- Two lists that are ordered are ordered together. -/
theorem pairwise_zip {α β : Type} {R : α → α → Prop} {S : β → β → Prop} {xs : List α}
    {ys : List β} (hx : xs.Pairwise R) (hy : ys.Pairwise S) :
    (xs.zip ys).Pairwise fun p q => R p.1 q.1 ∧ S p.2 q.2 := by
  rw [List.pairwise_iff_getElem] at hx hy ⊢
  intro i j hi hj hij
  rw [List.length_zip] at hi hj
  simp only [List.getElem_zip]
  exact ⟨hx i j (by omega) (by omega) hij, hy i j (by omega) (by omega) hij⟩

namespace RowView

variable {v : RowView} {i row : Nat}

theorem isHidden_eq_false_iff : v.isHidden i = false ↔ i ∉ v.hidden := by
  rw [isHidden, List.contains_eq_mem, decide_eq_false_iff_not]

/-! ## Looking up -/

/-- Is no position listed twice, no row listed twice, and are the same numbers listed as
    positions and as rows? -/
structure WellPlaced (v : RowView) : Prop where
  positions : (v.placed.map Prod.fst).Nodup
  rows : (v.placed.map Prod.snd).Nodup
  same : ∀ i, i ∈ v.placed.map Prod.fst ↔ i ∈ v.placed.map Prod.snd

/-- The view with positions and rows exchanged. -/
def turned (v : RowView) : RowView := { v with placed := v.placed.map Prod.swap }

theorem turned_turned (v : RowView) : v.turned.turned = v := by
  cases v
  simp [turned]

/-- Looking a row up is looking a position up in the view read the other way. -/
theorem toStorage_turned (v : RowView) (i : Nat) : v.turned.toStorage i = v.toView i := by
  unfold toView toStorage turned
  rw [List.find?_map, show (fun p : Nat × Nat => p.1 == i) ∘ Prod.swap = fun p => p.2 == i from rfl]
  cases v.placed.find? fun p => p.2 == i <;> rfl

theorem WellPlaced.turned (h : v.WellPlaced) : v.turned.WellPlaced := by
  have hfst : v.turned.placed.map Prod.fst = v.placed.map Prod.snd := by
    rw [RowView.turned, List.map_map]
    rfl
  have hsnd : v.turned.placed.map Prod.snd = v.placed.map Prod.fst := by
    rw [RowView.turned, List.map_map]
    rfl
  refine ⟨?_, ?_, fun i => ?_⟩
  · rw [hfst]
    exact h.rows
  · rw [hsnd]
    exact h.positions
  · rw [hfst, hsnd, h.same]

/-- A position that is listed shows its row, since it is listed once. -/
theorem WellPlaced.toStorage_of_mem (h : v.WellPlaced) (hmem : (i, row) ∈ v.placed) :
    v.toStorage i = row := by
  unfold toStorage
  cases hfind : v.placed.find? fun p => p.1 == i with
  | none => exact absurd (List.find?_eq_none.1 hfind _ hmem) (by simp)
  | some p =>
    have hp : p.1 = i := by simpa using List.find?_some hfind
    have heq : p = (i, row) :=
      List.inj_on_of_nodup_map h.positions (List.mem_of_find?_eq_some hfind) hmem hp
    rw [heq]

theorem toStorage_of_not_mem (hi : i ∉ v.placed.map Prod.fst) : v.toStorage i = i := by
  have hnone : (v.placed.find? fun p => p.1 == i) = none := by
    refine List.find?_eq_none.2 fun p hp => ?_
    rw [beq_iff_eq]
    rintro rfl
    exact hi (List.mem_map_of_mem hp)
  rw [toStorage, hnone]

/-- A position that is listed is listed with the row that it shows. -/
theorem WellPlaced.mem_placed (h : v.WellPlaced) (hi : i ∈ v.placed.map Prod.fst) :
    (i, v.toStorage i) ∈ v.placed := by
  obtain ⟨p, hp, rfl⟩ := List.mem_map.1 hi
  rw [h.toStorage_of_mem hp]
  exact hp

/-- The row at a position is shown at that position. -/
theorem WellPlaced.toView_toStorage (h : v.WellPlaced) (i : Nat) :
    v.toView (v.toStorage i) = i := by
  rw [← toStorage_turned]
  by_cases hi : i ∈ v.placed.map Prod.fst
  · have hmem : (v.toStorage i, i) ∈ v.turned.placed :=
      List.mem_map.2 ⟨_, h.mem_placed hi, rfl⟩
    exact h.turned.toStorage_of_mem hmem
  · -- It is not listed as a row either.
    have hturned : i ∉ v.turned.placed.map Prod.fst := by
      rw [RowView.turned, List.map_map]
      exact fun hmem => hi ((h.same i).2 hmem)
    rw [toStorage_of_not_mem hi, toStorage_of_not_mem hturned]

/-- At the position of a row that row is shown. -/
theorem WellPlaced.toStorage_toView (h : v.WellPlaced) (i : Nat) :
    v.toStorage (v.toView i) = i := by
  have hback := h.turned.toView_toStorage i
  rwa [toStorage_turned, ← toStorage_turned v.turned, turned_turned] at hback

/-- A list of rows beside the same rows in another order makes up a view that is well
    placed. -/
theorem wellPlaced_zip {rows sorted : List Nat} (hnodup : rows.Nodup) (hperm : sorted.Perm rows)
    (hidden : List Nat) : WellPlaced ⟨hidden, rows.zip sorted⟩ := by
  have hfst : (rows.zip sorted).map Prod.fst = rows := List.map_fst_zip hperm.length_eq.ge
  have hsnd : (rows.zip sorted).map Prod.snd = sorted := List.map_snd_zip hperm.length_eq.le
  refine ⟨?_, ?_, fun i => ?_⟩
  · rw [hfst]
    exact hnodup
  · rw [hsnd]
    exact hperm.nodup_iff.2 hnodup
  · rw [hfst, hsnd, hperm.mem_iff]

end RowView

namespace AutoFilter

variable {a : AutoFilter} {text : CellRef → String} {i j : Nat}

/-! ## The rows under the header -/

/-- Does the filter look at a row? -/
def IsData (a : AutoFilter) (row : Nat) : Prop :=
  ∃ r ∈ a.range, Address.next r.top ≤ row ∧ row ≤ r.bottom

/-- The filter looks at the rows under the header, unless the header is in the last row
    of the grid. -/
theorem isData_iff {r : Range} (hr : r ∈ a.range) (h : r.top + 1 ≠ Address.gridLimit) :
    a.IsData i ↔ r.top < i ∧ i ≤ r.bottom := by
  simp only [IsData, Option.mem_def.1 hr, Option.mem_def, Option.some.injEq, exists_eq_left',
    Address.next_of_ne h, Nat.succ_le_iff]

/-- Do the cells of a row pass every filter? -/
def Passes (a : AutoFilter) (text : CellRef → String) (row : Nat) : Prop :=
  ∀ f ∈ a.filters, f.accepts (text ⟨row, f.col⟩) = true

theorem mem_dataRows_iff : i ∈ a.dataRows ↔ a.IsData i := by
  unfold dataRows IsData
  cases a.range with
  | none => simp
  | some r =>
    simp only [List.mem_range'_1, Option.mem_def, Option.some.injEq, exists_eq_left']
    omega

theorem accepts_iff : a.accepts text i = true ↔ a.Passes text i := List.all_eq_true

theorem mem_visibleRows_iff : i ∈ a.visibleRows text ↔ a.IsData i ∧ a.Passes text i := by
  rw [visibleRows, List.mem_filter, mem_dataRows_iff, accepts_iff]

theorem mem_hiddenRows_iff : i ∈ a.hiddenRows text ↔ a.IsData i ∧ ¬a.Passes text i := by
  rw [hiddenRows, List.mem_filter, mem_dataRows_iff, ← accepts_iff, Bool.not_eq_true,
    Bool.not_eq_true']

theorem pairwise_dataRows (a : AutoFilter) : a.dataRows.Pairwise (· < ·) := by
  unfold dataRows
  cases a.range with
  | none => exact .nil
  | some r => exact List.pairwise_lt_range' 1

/-- The rows that pass are found from the top down. -/
theorem pairwise_visibleRows : (a.visibleRows text).Pairwise (· < ·) :=
  (pairwise_dataRows a).filter _

/-! ## Sorting -/

/-- The rows that pass, in the order in which they are shown. -/
def presented (a : AutoFilter) (text : CellRef → String) : List Nat :=
  match a.sort.map ColumnSort.order with
  | some .descending => (a.visibleRows text).reverse
  | _ => a.visibleRows text

theorem presented_perm : (a.presented text).Perm (a.visibleRows text) := by
  unfold presented
  split
  · exact List.reverse_perm _
  · exact .refl _

/-- The view lists the rows that pass beside the rows in the order they are shown in. -/
theorem rowView_eq (a : AutoFilter) (text : CellRef → String) :
    a.rowView text = ⟨a.hiddenRows text, (a.visibleRows text).zip (a.presented text)⟩ := rfl

theorem wellPlaced_rowView : (a.rowView text).WellPlaced :=
  RowView.wellPlaced_zip (pairwise_visibleRows.imp Nat.ne_of_lt) presented_perm _

theorem mem_positions_iff : i ∈ (a.rowView text).placed.map Prod.fst ↔ i ∈ a.visibleRows text := by
  rw [rowView_eq, List.map_fst_zip presented_perm.length_eq.ge]

/-- Do rows increase, or decrease if that is how they are sorted? -/
def InOrder (a : AutoFilter) (i j : Nat) : Prop :=
  match a.sort.map ColumnSort.order with
  | some .descending => j < i
  | some .ascending | none => i < j

theorem pairwise_presented : (a.presented text).Pairwise a.InOrder := by
  have hvisible : (a.visibleRows text).Pairwise (· < ·) := pairwise_visibleRows
  unfold presented InOrder
  cases a.sort.map ColumnSort.order with
  | none => exact hvisible
  | some order =>
    cases order with
    | ascending => exact hvisible
    | descending => exact List.pairwise_reverse.2 hvisible

/-- Of two positions, the one further down shows the row that comes later in the order. -/
theorem inOrder_toStorage (hi : i ∈ a.visibleRows text) (hj : j ∈ a.visibleRows text)
    (hij : i < j) : a.InOrder ((a.rowView text).toStorage i) ((a.rowView text).toStorage j) := by
  have hmem {k : Nat} (hk : k ∈ a.visibleRows text) :=
    wellPlaced_rowView.mem_placed (mem_positions_iff.2 hk)
  have hordered : (a.rowView text).placed.Pairwise fun p q => p.1 < q.1 ∧ a.InOrder p.2 q.2 :=
    pairwise_zip pairwise_visibleRows pairwise_presented
  -- The positions increase along the list, so the pair of the first one comes first.
  have hone : ∀ p ∈ (a.rowView text).placed, ∀ q ∈ (a.rowView text).placed,
      p.1 < q.1 → a.InOrder p.2 q.2 := by
    intro p hp q hq hlt
    rcases List.mem_iff_getElem.1 hp with ⟨m, hm, rfl⟩
    rcases List.mem_iff_getElem.1 hq with ⟨n, hn, rfl⟩
    have hat := List.pairwise_iff_getElem.1 hordered
    rcases Nat.lt_trichotomy m n with h | rfl | h
    · exact (hat m n hm hn h).2
    · exact absurd hlt (Nat.lt_irrefl _)
    · exact absurd hlt (Nat.lt_asymm (hat n m hn hm h).1)
  exact hone _ (hmem hi) _ (hmem hj) hij

/-! ## The view of a filter -/

/-- Only a position of a row that passes is listed. -/
theorem toStorage_of_not_mem_visibleRows (hi : i ∉ a.visibleRows text) :
    (a.rowView text).toStorage i = i :=
  RowView.toStorage_of_not_mem (mt mem_positions_iff.1 hi)

theorem toStorage_mem_iff :
    (a.rowView text).toStorage i ∈ a.visibleRows text ↔ i ∈ a.visibleRows text := by
  have hw : (a.rowView text).WellPlaced := wellPlaced_rowView
  constructor
  · intro hmem
    by_contra hi
    rw [toStorage_of_not_mem_visibleRows hi] at hmem
    exact hi hmem
  · intro hi
    have hplaced := hw.mem_placed (mem_positions_iff.2 hi)
    rw [← mem_positions_iff, hw.same]
    exact List.mem_map_of_mem hplaced

/-- The third row under the header is the first one that is shown, and the second is hidden. -/
example :
    let a : AutoFilter := { range := some (.between ⟨0, 0⟩ ⟨3, 0⟩), filters := [⟨0, .oneOf, ["a"]⟩]
                            sort := some ⟨0, .descending⟩ }
    let v := a.rowView fun c => if c.row = 2 then "b" else "a"
    v.hidden = [2] ∧ (List.range 5).map v.toStorage = [0, 3, 2, 1, 4] := by
  decide

end AutoFilter

end Worksheet
