import Worksheet.Proofs.Merges
import Worksheet.Sheet.Pasting
import Worksheet.Sheet.Selecting

/-!
# Selections That Grow

A selection that is stretched never ends inside a merge.

A range is widened by the merges it meets, and the wider range may meet more of
them, so one round is not enough. `Widens` is that loop without any bound on its
rounds, and a derivation of it is a loop that ended. It always does: a round that
changes the range takes in a merge that stuck out of it, and a merge that was
taken in never sticks out again, so there are no more such rounds than merges.

What the loop leaves is the smallest range that holds the first one and no part
of a merge. Every round stays inside any other such range, because a merge that
meets the smaller range meets the larger one as well and lies in it. The rest is
said of smallest ranges and not of rounds.

A selection out of which no merge sticks is what merging and moving ask for.

## Main definitions

* `Merges.Covers`: A range that holds another and whole merges only.
* `Merges.Widens`: The loop, with the number of rounds that changed the range.

## Theorems

* `Merges.growOnce_eq_self_iff`: The loop ends where no merge sticks out.
* `Merges.length_outside_lt`: A round that changes the range takes in a merge.
* `Merges.exists_widens_growFor`: The loop ends, with the range that is computed.
* `Merges.Widens.least`: It ends at the smallest range that covers the first one.
* `Sheet.grow_extendTo`: Growing a range, and the selection that is stretched.
-/

namespace Worksheet

namespace Range

theorem within_antisymm {a b : Range} (hab : a.within b = true) (hba : b.within a = true) :
    a = b := by
  rw [within_iff] at hab hba
  rw [eq_iff]
  omega

theorem within_union_left (a b : Range) : a.within (a.union b) = true := by
  simp only [within_iff, union]
  omega

theorem within_union_right (a b : Range) : b.within (a.union b) = true := by
  simp only [within_iff, union]
  omega

theorem union_within {a b c : Range} (ha : a.within c = true) (hb : b.within c = true) :
    (a.union b).within c = true := by
  rw [within_iff] at *
  simp only [union]
  omega

theorem within_foldl_union (rs : List Range) (r : Range) :
    r.within (rs.foldl union r) = true := by
  induction rs generalizing r with
  | nil => exact within_refl r
  | cons x rs ih => exact within_trans (within_union_left r x) (ih (r.union x))

theorem within_foldl_union_of_mem {rs : List Range} {x : Range} (hx : x ∈ rs) (r : Range) :
    x.within (rs.foldl union r) = true := by
  induction rs generalizing r with
  | nil => cases hx
  | cons y rs ih =>
    rcases List.mem_cons.1 hx with rfl | hx
    · exact within_trans (within_union_right r x) (within_foldl_union rs (r.union x))
    · exact ih hx (r.union y)

theorem foldl_union_within {rs : List Range} {r s : Range} (hr : r.within s = true)
    (hrs : ∀ x ∈ rs, x.within s = true) : (rs.foldl union r).within s = true := by
  induction rs generalizing r with
  | nil => exact hr
  | cons x rs ih =>
    exact ih (union_within hr (hrs x List.mem_cons_self)) fun y hy =>
      hrs y (List.mem_cons_of_mem x hy)

end Range

namespace Merges

variable {m : Merges} {r s : Range}

/-- A range that holds `r`, and every merge that it meets. -/
structure Covers (m : Merges) (r s : Range) : Prop where
  holds : r.within s = true
  whole : ∀ x ∈ m.ranges, x.intersects s = true → x.within s = true

/-- Widening a range until nothing changes any more, in some number of rounds. -/
inductive Widens (m : Merges) : Range → Nat → Range → Prop where
  | done {r : Range} (h : m.growOnce r = r) : Widens m r 0 r
  | round {r s : Range} {n : Nat} (h : m.growOnce r ≠ r) :
    Widens m (m.growOnce r) n s → Widens m r (n + 1) s

/-! ## One round -/

theorem within_growOnce (m : Merges) (r : Range) : r.within (m.growOnce r) = true :=
  Range.within_foldl_union _ r

/-- A round takes in every merge that the range meets. -/
theorem mem_within_growOnce {x : Range} (hx : x ∈ m.ranges) (hmeets : x.intersects r = true) :
    x.within (m.growOnce r) = true :=
  Range.within_foldl_union_of_mem (List.mem_filter.2 ⟨hx, hmeets⟩) r

/-- A round does not leave a range that covers the first one. -/
theorem Covers.growOnce_within (h : m.Covers r s) : (m.growOnce r).within s = true := by
  refine Range.foldl_union_within h.holds fun x hx => ?_
  rcases List.mem_filter.1 hx with ⟨hx, hmeets⟩
  -- The merge meets the smaller range, so also the larger one.
  rw [Range.intersects_comm] at hmeets
  have hmeets' := Range.intersects_of_within h.holds hmeets
  rw [Range.intersects_comm] at hmeets'
  exact h.whole x hx hmeets'

/-- Nothing changes just when no merge sticks out. -/
theorem growOnce_eq_self_iff : m.growOnce r = r ↔
    ∀ x ∈ m.ranges, x.intersects r = true → x.within r = true := by
  constructor
  · intro h x hx hmeets
    have hwithin := mem_within_growOnce hx hmeets
    rwa [h] at hwithin
  · intro h
    have hcovers : m.Covers r r := ⟨Range.within_refl r, h⟩
    exact Range.within_antisymm hcovers.growOnce_within (within_growOnce m r)

/-- The merges that do not lie inside a range. -/
def outside (m : Merges) (r : Range) : List Range := m.ranges.filter fun x => !x.within r

/-- A round that changes the range takes in a merge that was not inside it. -/
theorem length_outside_lt (h : m.growOnce r ≠ r) :
    (m.outside (m.growOnce r)).length < (m.outside r).length := by
  obtain ⟨x, hx, hmeets, hout⟩ : ∃ x ∈ m.ranges, x.intersects r = true ∧ ¬x.within r = true := by
    by_contra hnone
    exact h (growOnce_eq_self_iff.2 fun x hx hmeets =>
      by_contra fun hout => hnone ⟨x, hx, hmeets, hout⟩)
  -- What was inside stays inside, so the merges outside are among those of before.
  have hsplit : m.outside (m.growOnce r) =
      (m.outside r).filter fun x => !x.within (m.growOnce r) := by
    unfold outside
    rw [List.filter_filter]
    refine List.filter_congr fun y _ => ?_
    cases hy : y.within r with
    | true => simp [Range.within_trans hy (within_growOnce m r)]
    | false => simp
  rw [hsplit, List.length_filter_lt_length_iff_exists]
  exact ⟨x, List.mem_filter.2 ⟨hx, by simpa using hout⟩, by simp [mem_within_growOnce hx hmeets]⟩

/-! ## All rounds -/

/-- With a bound above the number of merges that are not inside, the loop ends by itself. -/
theorem exists_widens_growFor {fuel : Nat} (h : (m.outside r).length < fuel) :
    ∃ rounds ≤ (m.outside r).length, m.Widens r rounds (m.growFor fuel r) := by
  induction fuel generalizing r with
  | zero => exact absurd h (Nat.not_lt_zero _)
  | succ fuel ih =>
    rw [growFor]
    by_cases hfixed : m.growOnce r = r
    · rw [if_pos hfixed]
      exact ⟨0, Nat.zero_le _, .done hfixed⟩
    · rw [if_neg hfixed]
      have hlt := length_outside_lt hfixed
      rcases ih (r := m.growOnce r) (by omega) with ⟨rounds, hrounds, hwidens⟩
      exact ⟨rounds + 1, by omega, .round hfixed hwidens⟩

theorem exists_widens_grow (m : Merges) (r : Range) :
    ∃ rounds ≤ m.ranges.length, m.Widens r rounds (m.grow r) := by
  have houtside : (m.outside r).length ≤ m.ranges.length := List.length_filter_le _ _
  rcases exists_widens_growFor (Nat.lt_succ_of_le houtside) with ⟨rounds, hrounds, hwidens⟩
  exact ⟨rounds, Nat.le_trans hrounds houtside, hwidens⟩

/-- Where the loop ends is the smallest range that covers the first one. -/
theorem Widens.least {n : Nat} (h : m.Widens r n s) :
    m.Covers r s ∧ ∀ t, m.Covers r t → s.within t = true := by
  induction h with
  | done h => exact ⟨⟨Range.within_refl _, growOnce_eq_self_iff.1 h⟩, fun t ht => ht.holds⟩
  | @round r _ _ _ _ ih =>
    rcases ih with ⟨hcovers, hleast⟩
    refine ⟨⟨Range.within_trans (within_growOnce m r) hcovers.holds, hcovers.whole⟩,
      fun t ht => ?_⟩
    exact hleast t ⟨ht.growOnce_within, ht.whole⟩

theorem covers_grow (m : Merges) (r : Range) : m.Covers r (m.grow r) := by
  rcases exists_widens_grow m r with ⟨_, _, hwidens⟩
  exact hwidens.least.1

theorem grow_within_of_covers (h : m.Covers r s) : (m.grow r).within s = true := by
  rcases exists_widens_grow m r with ⟨_, _, hwidens⟩
  exact hwidens.least.2 s h

theorem grow_within_grow (h : r.within s = true) : (m.grow r).within (m.grow s) = true :=
  grow_within_of_covers ⟨Range.within_trans h (covers_grow m s).holds, (covers_grow m s).whole⟩

/-- A range that covers itself does not grow. -/
theorem grow_grow (m : Merges) (r : Range) : m.grow (m.grow r) = m.grow r :=
  Range.within_antisymm
    (grow_within_of_covers ⟨Range.within_refl _, (covers_grow m r).whole⟩)
    (covers_grow m (m.grow r)).holds

end Merges

namespace Sheet

variable {s : Sheet} {r : Range}

/-! ## What a whole selection is good for -/

/-- A selection out of which no merge sticks is not refused to be merged because of one. -/
theorem merge_ne_overlap (hr : s.selection.range = some r) (hwhole : s.merges.straddling? r = none)
    (x : Range) : s.merge.2 ≠ .rejected (.mergeOverlap x) := by
  unfold merge
  rw [hr]
  simp only [hwhole]
  split
  · simp
  · unfold commit
    split <;> simp

/-- A range out of which no merge sticks may be moved, as far as its own merges go. -/
theorem paste_ne_split (hr : s.clipboard = .cut r) (hwhole : s.merges.straddling? r = none)
    (mode : CopyMode) (x : Range) : (s.paste mode).2 ≠ .rejected (.cutSplitsMerge x) := by
  unfold paste
  rw [hr]
  simp only [checkCut, hwhole, Option.map_none, Option.none_or]
  cases s.selection.range with
  | none => simp
  | some dst =>
    simp only [checkPaste]
    split
    · rename_i heq
      split at heq
      · rw [← Option.some.inj heq]
        simp
      · cases heq
    · unfold commit
      split <;> simp

/-- Growing a range ends after at most as many changes as there are merges, at the smallest
    range that holds the first one and every merge it meets; so growing is monotone and
    growing again changes nothing. No merge sticks out of a selection that was stretched: to
    merge it is never refused for an overlap, and to move it never for splitting a merge. -/
theorem grow_extendTo :
    (∀ (m : Merges) (r : Range),
      (∃ rounds ≤ m.ranges.length, m.Widens r rounds (m.grow r)) ∧
      m.Covers r (m.grow r) ∧ (∀ s, m.Covers r s → (m.grow r).within s = true) ∧
      (∀ s, r.within s = true → (m.grow r).within (m.grow s) = true) ∧
      m.grow (m.grow r) = m.grow r) ∧
    ∀ (s : Sheet) (c : CellRef),
      let r := (s.extendTo c).2
      (s.extendTo c).1.selection.range = some r ∧
      s.merges.Covers ((Range.single s.selection.active).union (.single c)) r ∧
      (∀ x, (s.extendTo c).1.merge.2 ≠ .rejected (.mergeOverlap x)) ∧
      (s.extendTo c).1.cut.1.clipboard = .cut r ∧
      ∀ t : Sheet, t.merges = s.merges → t.clipboard = .cut r →
        ∀ mode x, (t.paste mode).2 ≠ .rejected (.cutSplitsMerge x) := by
  refine ⟨fun m r => ⟨m.exists_widens_grow r, m.covers_grow r,
    fun _ => Merges.grow_within_of_covers, fun _ => Merges.grow_within_grow, m.grow_grow r⟩,
    fun s c => ?_⟩
  have hcovers := s.merges.covers_grow ((Range.single s.selection.active).union (.single c))
  have hwhole := Merges.straddling?_eq_none_iff.2 hcovers.whole
  refine ⟨rfl, hcovers, merge_ne_overlap rfl hwhole, rfl, fun t hmerges hclipboard => ?_⟩
  exact paste_ne_split hclipboard (by rw [hmerges]; exact hwhole)

/-- Each merge of a chain is met only when the one before it has been taken in. -/
example :
    (Merges.mk [.between ⟨1, 3⟩ ⟨2, 3⟩, .between ⟨0, 2⟩ ⟨0, 3⟩, .between ⟨1, 1⟩ ⟨1, 2⟩]).grow
      (.between ⟨0, 0⟩ ⟨1, 1⟩) = .between ⟨0, 0⟩ ⟨2, 3⟩ := by
  decide

end Sheet

end Worksheet
