import Worksheet.Proofs.Address.Rectangle

/-!
# What Is Left of a Range

Taking one range out of another.

A cell outside of a range lies above it, below it, or in its rows and then before it or
after it. So what is left of a range when another is taken out of it falls apart by sides,
and on each side it is a rectangle or nothing. The bands above and below keep their full
width, which is why no cell is counted on two sides.

That there are no more pieces than needed is seen from one cell that both ranges have. For
each side that has a piece, the cell next to the range that is taken out, in line with the
common cell, is left over. A range that held two of these cells would hold the common cell
as well. So a family of ranges that covers what is left has a range of its own for every
side.

## Main definitions

* `Side`, `OnSide`: The sides of a range, and the cells on a side.
* `piece?`: What is left of a range on a side of another one.
* `beside`: The cell next to a range on a side, in line with a given one.
* `CoversDifference`: The cells that a family of ranges holds are those that are left.

## Theorems

* `difference_eq_pieces`: What is left is the pieces on the four sides.
* `exists_piece?_iff`: A piece holds what is left on its side.
* `mem_of_beside`: Cells beside a range on two sides have the common cell between them.
* `length_le_of_apart`: Cells that need ranges of their own.
* `difference_minimal`: The pieces are disjoint, and as few as can be.
-/

namespace Worksheet

namespace Range

/-- The sides of a range. -/
inductive Side where
  | above
  | below
  | before
  | after
  deriving DecidableEq

/-- Is a cell on a side of a range? Rows above and below come first. -/
def OnSide (b : Range) (c : CellRef) : Side → Prop
  | .above => c.row < b.top
  | .below => b.bottom < c.row
  | .before => b.top ≤ c.row ∧ c.row ≤ b.bottom ∧ c.col < b.left
  | .after => b.top ≤ c.row ∧ c.row ≤ b.bottom ∧ b.right < c.col

/-- What is left of a range on a side of one that it meets. -/
def piece? (a b : Range) : Side → Option Range
  | .above => if a.top < b.top then ofEdges? a.top a.left (b.top - 1) a.right else none
  | .below => if b.bottom < a.bottom then ofEdges? (b.bottom + 1) a.left a.bottom a.right else none
  | .before => if a.left < b.left then
      ofEdges? (max a.top b.top) a.left (min a.bottom b.bottom) (b.left - 1) else none
  | .after => if b.right < a.right then
      ofEdges? (max a.top b.top) (b.right + 1) (min a.bottom b.bottom) a.right else none

/-- The cell next to a range on a side, in the row or the column of a given cell. -/
def beside (b : Range) (c : CellRef) : Side → CellRef
  | .above => ⟨b.top - 1, c.col⟩
  | .below => ⟨b.bottom + 1, c.col⟩
  | .before => ⟨c.row, b.left - 1⟩
  | .after => ⟨c.row, b.right + 1⟩

/-- Do the ranges of a family together hold exactly the cells of `a` that are not in `b`? -/
def CoversDifference (a b : Range) (family : List Range) : Prop :=
  ∀ c, (∃ r ∈ family, r.mem c = true) ↔ a.mem c = true ∧ b.mem c = false

variable {a b p q r : Range} {side side' : Side} {c : CellRef}

/-! ## The sides -/

/-- The cells outside of a range are those on its sides. -/
theorem mem_eq_false_iff : b.mem c = false ↔ ∃ side, OnSide b c side := by
  rw [Bool.eq_false_iff, ne_eq, mem_iff]
  constructor
  · intro h
    rcases Nat.lt_or_ge c.row b.top with habove | htop
    · exact ⟨.above, habove⟩
    rcases Nat.lt_or_ge b.bottom c.row with hbelow | hbottom
    · exact ⟨.below, hbelow⟩
    rcases Nat.lt_or_ge c.col b.left with hbefore | hleft
    · exact ⟨.before, htop, hbottom, hbefore⟩
    · exact ⟨.after, htop, hbottom, by omega⟩
  · rintro ⟨side, hside⟩
    cases side <;> simp only [OnSide] at hside <;> omega

/-- A cell is on one side only. -/
theorem OnSide.unique (h : OnSide b c side) (h' : OnSide b c side') : side = side' := by
  have htop := b.top_le_bottom
  have hleft := b.left_le_right
  cases side <;> cases side' <;> simp only [OnSide, reduceCtorEq] at h h' ⊢ <;> omega

/-- Ranges that meet have a cell in common. -/
theorem exists_mem_of_intersects (h : a.intersects b = true) :
    ∃ c, a.mem c = true ∧ b.mem c = true := by
  have htop := a.top_le_bottom
  have hleft := a.left_le_right
  have htop' := b.top_le_bottom
  have hleft' := b.left_le_right
  rw [intersects_iff] at h
  refine ⟨⟨max a.top b.top, max a.left b.left⟩, ?_, ?_⟩
  · rw [mem_iff]
    dsimp only
    omega
  · rw [mem_iff]
    dsimp only
    omega

/-! ## The pieces -/

/-- What is left of a range is the pieces on the four sides. -/
theorem difference_eq_pieces (h : a.intersects b = true) :
    a.difference b = [Side.above, .below, .before, .after].filterMap (piece? a b) := by
  have hcons (side : Side) (sides : List Side) : (side :: sides).filterMap (piece? a b) =
      (piece? a b side).toList ++ sides.filterMap (piece? a b) := by
    rw [List.filterMap_cons]
    cases piece? a b side <;> rfl
  rw [difference, if_pos h, hcons, hcons, hcons, hcons, List.filterMap_nil, List.append_nil,
    List.append_assoc, List.append_assoc]
  rfl

theorem mem_difference_iff (h : a.intersects b = true) :
    p ∈ a.difference b ↔ ∃ side, piece? a b side = some p := by
  rw [difference_eq_pieces h, List.mem_filterMap]
  refine ⟨fun ⟨side, _, hp⟩ => ⟨side, hp⟩, fun ⟨side, hp⟩ => ⟨side, ?_, hp⟩⟩
  cases side <;> decide

theorem exists_mem_ofEdges?_iff {top left bottom right : Nat} {P : Prop} [Decidable P] :
    (∃ p, (if P then ofEdges? top left bottom right else none) = some p ∧ p.mem c = true) ↔
      P ∧ top ≤ c.row ∧ c.row ≤ bottom ∧ left ≤ c.col ∧ c.col ≤ right := by
  constructor
  · rintro ⟨p, hp, hc⟩
    simp only [ofEdges?, Option.ite_none_right_eq_some, Option.dite_none_right_eq_some,
      Option.some.injEq] at hp
    obtain ⟨hP, _, rfl⟩ := hp
    exact ⟨hP, mem_iff.1 hc⟩
  · rintro ⟨hP, hc⟩
    have hedges : top ≤ bottom ∧ left ≤ right := by omega
    exact ⟨⟨top, left, bottom, right, hedges.1, hedges.2⟩,
      by rw [if_pos hP, ofEdges?, dif_pos hedges], mem_iff.2 hc⟩

/-- A piece holds what is left on its side. -/
theorem exists_piece?_iff (h : a.intersects b = true) :
    (∃ p, piece? a b side = some p ∧ p.mem c = true) ↔ a.mem c = true ∧ OnSide b c side := by
  have htop := b.top_le_bottom
  have hleft := b.left_le_right
  rw [intersects_iff] at h
  rw [mem_iff]
  cases side <;> simp only [piece?, exists_mem_ofEdges?_iff, OnSide] <;> omega

/-- The pieces on different sides do not meet. -/
theorem piece?_disjoint (h : a.intersects b = true) (hne : side ≠ side')
    (hp : piece? a b side = some p) (hq : piece? a b side' = some q) : p.intersects q = false := by
  rw [Bool.eq_false_iff]
  intro hmeet
  obtain ⟨c, hpc, hqc⟩ := exists_mem_of_intersects hmeet
  have hholds := ((exists_piece?_iff h).1 ⟨p, hp, hpc⟩).2
  exact hne (hholds.unique ((exists_piece?_iff h).1 ⟨q, hq, hqc⟩).2)

theorem difference_pairwise (a b : Range) :
    (a.difference b).Pairwise fun p q => p.intersects q = false := by
  by_cases h : a.intersects b = true
  · rw [difference_eq_pieces h, List.pairwise_filterMap]
    have hsides : [Side.above, .below, .before, .after].Pairwise (· ≠ ·) := by decide
    exact hsides.imp fun hne p hp q hq => piece?_disjoint h hne hp hq
  · rw [difference, if_neg h]
    exact List.pairwise_singleton _ a

theorem coversDifference (a b : Range) : CoversDifference a b (a.difference b) := by
  intro c
  by_cases h : a.intersects b = true
  · simp only [mem_difference_iff h]
    constructor
    · rintro ⟨p, ⟨side, hp⟩, hc⟩
      obtain ⟨hmem, hside⟩ := (exists_piece?_iff h).1 ⟨p, hp, hc⟩
      exact ⟨hmem, mem_eq_false_iff.2 ⟨side, hside⟩⟩
    · rintro ⟨hmem, hout⟩
      obtain ⟨side, hside⟩ := mem_eq_false_iff.1 hout
      obtain ⟨p, hp, hc⟩ := (exists_piece?_iff h).2 ⟨hmem, hside⟩
      exact ⟨p, ⟨side, hp⟩, hc⟩
  · rw [difference, if_neg h]
    simp only [List.mem_singleton, exists_eq_left]
    refine ⟨fun hc => ⟨hc, ?_⟩, And.left⟩
    rw [Bool.eq_false_iff]
    exact fun hb => h (intersects_of_mem hc hb)

/-! ## How many pieces are needed -/

/-- Where there is a piece, the cell beside the common one is left over. -/
theorem mem_beside (hmeet : a.intersects b = true) (h : piece? a b side = some p)
    (ha : a.mem c = true) (hb : b.mem c = true) :
    a.mem (beside b c side) = true ∧ OnSide b (beside b c side) side := by
  obtain ⟨hmem, hside⟩ := (exists_piece?_iff hmeet).1 ⟨p, h, p.mem_first⟩
  rw [mem_iff] at ha hb hmem ⊢
  cases side <;> simp only [OnSide, beside] at hside ⊢ <;> omega

/-- A range that holds the cells beside another one on two sides holds the cell that they are
    in line with. -/
theorem mem_of_beside (hb : b.mem c = true) (hne : side ≠ side')
    (h : r.mem (beside b c side) = true) (h' : r.mem (beside b c side') = true) :
    r.mem c = true := by
  rw [mem_iff] at *
  cases side <;> cases side' <;>
    simp only [beside, ne_eq, not_true_eq_false, reduceCtorEq] at hne h h' <;> omega

/-- If no range of a family holds two of some cells, and every one of them is held, there are
    as many ranges as cells. -/
theorem length_le_of_apart {cs : List CellRef} {family : List Range}
    (hheld : ∀ c ∈ cs, ∃ r ∈ family, r.mem c = true)
    (hapart : cs.Pairwise fun c c' => ∀ r ∈ family, r.mem c = true → ¬r.mem c' = true) :
    cs.length ≤ family.length := by
  -- The range that holds the first of the cells holds none of the others, so it can be
  -- taken out of the family.
  induction cs generalizing family with
  | nil => exact Nat.zero_le _
  | cons c cs ih =>
    obtain ⟨hfirst, hrest⟩ := List.pairwise_cons.1 hapart
    obtain ⟨r, hr, hrc⟩ := hheld c List.mem_cons_self
    have hle : cs.length ≤ (family.erase r).length := ih
      (fun c' hc' => by
        obtain ⟨r', hr', hrc'⟩ := hheld c' (List.mem_cons_of_mem _ hc')
        have hne : r' ≠ r := fun heq => hfirst c' hc' r hr hrc (heq ▸ hrc')
        exact ⟨r', (List.mem_erase_of_ne hne).2 hr', hrc'⟩)
      (hrest.imp fun h r' hr' => h r' (List.mem_of_mem_erase hr'))
    have hpos := List.length_pos_of_mem hr
    rw [List.length_erase_of_mem hr] at hle
    rw [List.length_cons]
    omega

/-- A family that covers what is left of a range has a range for every piece. -/
theorem length_difference_le {family : List Range} (h : CoversDifference a b family) :
    (a.difference b).length ≤ family.length := by
  by_cases hmeet : a.intersects b = true
  · obtain ⟨c, ha, hb⟩ := exists_mem_of_intersects hmeet
    -- The sides that have a piece, and the cells beside the common cell on these sides.
    let sides := [Side.above, .below, .before, .after].filter fun side => (piece? a b side).isSome
    have hlength : (a.difference b).length = (sides.map (beside b c)).length := by
      rw [difference_eq_pieces hmeet, List.length_filterMap_eq_countP, List.length_map,
        List.countP_eq_length_filter]
    have hleft : ∀ side ∈ sides, a.mem (beside b c side) = true ∧
        b.mem (beside b c side) = false := fun side hside => by
      obtain ⟨p, hp⟩ := Option.isSome_iff_exists.1 (List.mem_filter.1 hside).2
      obtain ⟨hmem, hon⟩ := mem_beside hmeet hp ha hb
      exact ⟨hmem, mem_eq_false_iff.2 ⟨side, hon⟩⟩
    rw [hlength]
    refine length_le_of_apart (fun c' hc' => ?_) ?_
    · obtain ⟨side, hside, rfl⟩ := List.mem_map.1 hc'
      exact (h _).2 (hleft side hside)
    · rw [List.pairwise_map]
      have hsides : sides.Pairwise (· ≠ ·) :=
        (by decide : [Side.above, .below, .before, .after].Pairwise (· ≠ ·)).filter _
      refine hsides.imp fun hne r hr hside hside' => ?_
      -- A range that held both would hold the common cell, which is not left over.
      have hout := ((h c).1 ⟨r, hr, mem_of_beside hb hne hside hside'⟩).2
      rw [hb] at hout
      cases hout
  · rw [difference, if_neg hmeet]
    have hheld : ∀ c ∈ [a.first], ∃ r ∈ family, r.mem c = true := by
      intro c hc
      rw [List.mem_singleton.1 hc]
      refine (h a.first).2 ⟨a.mem_first, ?_⟩
      rw [Bool.eq_false_iff]
      exact fun hb => hmeet (intersects_of_mem a.mem_first hb)
    exact length_le_of_apart hheld (List.pairwise_singleton _ _)

/-- Taking a range out of another leaves ranges that share no cell and together hold exactly
    the cells of the one that are not in the other. No family of ranges that holds exactly
    these cells has fewer members, whether its members share cells or not. -/
theorem difference_minimal (a b : Range) :
    (a.difference b).Pairwise (fun p q => p.intersects q = false) ∧
      CoversDifference a b (a.difference b) ∧
      ∀ family, CoversDifference a b family → (a.difference b).length ≤ family.length :=
  ⟨difference_pairwise a b, coversDifference a b, fun _ => length_difference_le⟩

/-- The eight cells around a cell, as four ranges that go around it and not in bands. -/
theorem difference_minimal_around :
    let a : Range := .spanning ⟨0, 0⟩ 2 2
    let b : Range := .single ⟨1, 1⟩
    let family : List Range := [.spanning ⟨0, 0⟩ 0 1, .spanning ⟨0, 2⟩ 1 0,
      .spanning ⟨2, 1⟩ 0 1, .spanning ⟨1, 0⟩ 1 0]
    CoversDifference a b family ∧ (a.difference b).length ≤ family.length := by
  intro a b family
  have hcovers : CoversDifference a b family := by
    intro c
    simp only [a, b, family, List.mem_cons, List.not_mem_nil, or_false, exists_eq_or_imp,
      exists_eq_left, mem_iff, Bool.eq_false_iff, ne_eq, spanning, single]
    omega
  exact ⟨hcovers, (difference_minimal a b).2.2 family hcovers⟩

end Range

end Worksheet
