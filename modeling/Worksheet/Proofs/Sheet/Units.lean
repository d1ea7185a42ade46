import Worksheet.Proofs.Address.Lines
import Worksheet.Proofs.Sheet.Agreement

/-!
# What Counts as One Cell

The cells of a range, put together where a merge covers them.

To the user a merge is one cell, so what is done along the edges of a range is done
for units: a merge, or a cell that no merge covers. Where the registry and the marks
of a range say the same, the units are what one expects. No cell is in two of them, and
the mark of a cell has the rest of the unit that begins there, or nothing.

Going along a line from unit to unit is a walk that skips by the mark it meets. It
is described here for a line that is cut into blocks, without a sheet: the walk stops
at the first place of every block, and at each place of a block that it starts in
the middle of. A line of a range is cut into blocks by the units that begin on it. All
other cells of the line are blocks of their own, because their units begin elsewhere
and the walk does not know that they belong together.

The outline of a range is another matter. It runs along the sides that units have in
common with the range, wherever they begin. A walk along each side finds the outline
only if the units at the far sides are no larger than a line.

## Main definitions

* `Merges.unitAt`: The unit that a cell is in.
* `MirrorsOn`: The registry and the marks say the same about a range.
* `stops`, `Blocks`: Where a walk along a line stops, and a line cut into blocks.
* `Merges.blockFirst`, `Merges.blockLast`: The blocks of a line of a range.
* `BorderSide`, `Range.edge`: The sides of a range, and the lines that lie there.
* `sideStops`, `Outlined`: Where walks along the sides of a range stop, and its outline.
* `Merges.FlushIn`: Merges that lie flush in a range.

## Theorems

* `MirrorsOn.unitAt_eq`, `MirrorsOn.unitAt_congr`: No cell is in two units.
* `MirrorsOn.span_eq`: What the mark of a cell says about its unit.
* `Blocks.mem_stops_iff`, `MirrorsOn.mem_sideStops_iff`: Where a walk stops.
* `MirrorsOn.along_span`: What a walk skips.
* `MirrorsOn.flushIn_iff`: When the walks find the outline.
-/

namespace Worksheet

/-! ## Units -/

namespace Merges

variable {m : Merges} {c : CellRef}

/-- What counts as one cell at a place: the merge that covers it, or the cell alone. -/
def unitAt (m : Merges) (c : CellRef) : Range := (m.firstAt? c).getD (.single c)

/-- The unit of a cell is a registered merge, unless no merge covers the cell. -/
theorem unitAt_cases (m : Merges) (c : CellRef) :
    m.unitAt c ∈ m.ranges ∧ (m.unitAt c).mem c = true ∨
      m.unitAt c = .single c ∧ ∀ x ∈ m.ranges, x.mem c = false := by
  unfold unitAt firstAt?
  cases hfind : m.ranges.find? fun x => x.mem c with
  | some x =>
    have hmem : x.mem c = true := List.find?_some (p := fun x : Range => x.mem c) hfind
    exact .inl ⟨List.mem_of_find?_eq_some hfind, hmem⟩
  | none =>
    refine .inr ⟨rfl, fun x hx => ?_⟩
    exact Bool.eq_false_iff.2 (List.find?_eq_none.1 hfind x hx)

theorem mem_unitAt (m : Merges) (c : CellRef) : (m.unitAt c).mem c = true := by
  rcases m.unitAt_cases c with ⟨-, hmem⟩ | ⟨hsingle, -⟩
  · exact hmem
  · rw [hsingle]
    exact Range.mem_first (.single c)

end Merges

/-- Do the registry and the marks say the same, as far as the cells of a range go? -/
structure MirrorsOn (m : Merges) (s : Rows) (r : Range) : Prop where
  apart : ∀ x ∈ m.ranges, ∀ y ∈ m.ranges, ∀ c, r.mem c → x.mem c → y.mem c → x = y
  marks : ∀ c span, r.mem c = true → s.mark c = some span →
    Range.spanning c span.rows span.cols ∈ m.ranges
  anchored : ∀ x ∈ m.ranges, r.mem x.first = true → s.mark x.first = some x.span

/-- What mirrors each other everywhere does so on every range. -/
theorem Mirrors.on {m : Merges} {s : Rows} (h : Mirrors m s) (r : Range) : MirrorsOn m s r where
  apart _ hx _ hy _ _ hxc hyc := h.apart.eq_of_mem hx hy hxc hyc
  marks c span _ hmark := h.marks c span hmark
  anchored x hx _ := h.anchored x hx

theorem Rows.span_eq_mark (s : Rows) (c : CellRef) : s.span c = (s.mark c).getD .zero := by
  unfold Rows.span Rows.mark
  cases s.cell? c <;> rfl

namespace MirrorsOn

variable {m : Merges} {s : Rows} {r : Range}

/-- A merge is the unit of each of its cells. -/
theorem unitAt_eq (h : MirrorsOn m s r) {x : Range} {c : CellRef} (hx : x ∈ m.ranges)
    (hr : r.mem c = true) (hc : x.mem c = true) : m.unitAt c = x := by
  rcases m.unitAt_cases c with ⟨hunit, hmem⟩ | ⟨-, hnone⟩
  · exact h.apart _ hunit x hx c hr hmem hc
  · rw [hnone x hx] at hc
    cases hc

/-- The cells of a unit are all in the same one. -/
theorem unitAt_congr (h : MirrorsOn m s r) {c c' : CellRef} (hr : r.mem c' = true)
    (hc : (m.unitAt c).mem c' = true) : m.unitAt c' = m.unitAt c := by
  rcases m.unitAt_cases c with ⟨hunit, -⟩ | ⟨hsingle, -⟩
  · exact h.unitAt_eq hunit hr hc
  · rw [hsingle, Range.mem_iff] at hc
    obtain ⟨row, col⟩ := c
    obtain ⟨row', col'⟩ := c'
    obtain ⟨hrow, hcol⟩ : row' = row ∧ col' = col := by
      simp only [Range.single] at hc
      omega
    rw [hrow, hcol]

/-- The mark of a cell has the rest of the unit that begins there. -/
theorem span_eq (h : MirrorsOn m s r) {c : CellRef} (hr : r.mem c = true) :
    s.span c = if (m.unitAt c).first = c then (m.unitAt c).span else .zero := by
  rw [Rows.span_eq_mark]
  by_cases hfirst : (m.unitAt c).first = c
  · rw [if_pos hfirst]
    rcases m.unitAt_cases c with ⟨hunit, -⟩ | ⟨hsingle, hnone⟩
    · have hmark := h.anchored _ hunit (by rwa [hfirst])
      rw [hfirst] at hmark
      rw [hmark, Option.getD_some]
    · -- A mark here would belong to a merge that covers the cell.
      cases hmark : s.mark c with
      | none =>
        rw [hsingle, Option.getD_none]
        simp [Range.span, Range.single, Span.zero]
      | some span =>
        have hcovered := hnone _ (h.marks c span hr hmark)
        rw [Range.mem_spanning] at hcovered
        cases hcovered
  · rw [if_neg hfirst]
    cases hmark : s.mark c with
    | none => rfl
    | some span =>
      have hunit := h.unitAt_eq (h.marks c span hr hmark) hr (Range.mem_spanning c _ _)
      rw [hunit] at hfirst
      exact absurd rfl hfirst

end MirrorsOn

/-! ## Walks -/

/-- The places where a walk along a line stops, up to the last one. From a place it goes
    on behind those that it skips. The second argument bounds the steps. -/
def stops (skip : Nat → Nat) (last : Nat) : Nat → Nat → List Nat
  | 0, _ => []
  | fuel + 1, k => if last < k then [] else k :: stops skip last fuel (k + skip k + 1)

/-- A line that is cut into blocks, given by the first and the last place of the block
    that each place is in. Only the places between two bounds have to fit together. -/
structure Blocks (lo hi : Nat) (first last : Nat → Nat) : Prop where
  mem : ∀ k, first k ≤ k ∧ k ≤ last k
  same : ∀ j k, lo ≤ j → j ≤ hi → lo ≤ k → k ≤ hi → first j ≤ k → k ≤ last j →
    first k = first j ∧ last k = last j

/-- A walk that skips the rest of each block it meets the first place of stops at the
    first place of every block, and at the places of a block that it starts in. -/
theorem Blocks.mem_stops_iff {lo hi : Nat} {first last skip : Nat → Nat}
    (h : Blocks lo hi first last)
    (hskip : ∀ k, lo ≤ k → k ≤ hi → skip k = if first k = k then last k - k else 0) {fuel : Nat}
    (hfuel : hi < lo + fuel) (k : Nat) :
    k ∈ stops skip hi fuel lo ↔ lo ≤ k ∧ k ≤ hi ∧ (first k = k ∨ first k < lo) := by
  induction fuel generalizing lo with
  | zero =>
    refine ⟨fun hk => absurd hk List.not_mem_nil, fun hk => ?_⟩
    omega
  | succ fuel ih =>
    rw [stops]
    by_cases hend : hi < lo
    · rw [if_pos hend]
      refine ⟨fun hk => absurd hk List.not_mem_nil, fun hk => ?_⟩
      omega
    · have hlo := h.mem lo
      have hk := h.mem k
      have hstep := hskip lo (Nat.le_refl lo) (Nat.not_lt.1 hend)
      rw [if_neg hend, List.mem_cons, ih ⟨h.mem, fun i j hi hi' hj hj' =>
        h.same i j (by omega) hi' (by omega) hj'⟩ (fun j hj => hskip j (by omega)) (by omega)]
      -- The walk begins with a whole block, or in the middle of one.
      by_cases hfirst : first lo = lo
      · rw [if_pos hfirst] at hstep
        refine ⟨fun hstop => ?_, fun hstop => ?_⟩
        · by_cases hlater : lo ≤ first k ∧ first k ≤ last lo ∧ lo < k
          · -- Then the block of the place would be the one that was skipped.
            have hskipped := h.same lo (first k) (by omega) (by omega) (by omega) (by omega)
              (by omega) (by omega)
            have hown := h.same k (first k) (by omega) (by omega) (by omega) (by omega)
              (by omega) (by omega)
            omega
          · omega
        · by_cases hskipped : lo < k ∧ k ≤ last lo
          · have hsame := h.same lo k (by omega) (by omega) (by omega) (by omega) (by omega)
              (by omega)
            omega
          · omega
      · rw [if_neg hfirst] at hstep
        refine ⟨fun hstop => ?_, fun hstop => by omega⟩
        by_cases hhere : first k = lo ∧ lo < k
        · have hsame := h.same k lo (by omega) (by omega) (by omega) (by omega) (by omega)
            (by omega)
          omega
        · omega

/-! ## The sides of a range -/

/-- The sides of a cell or a range along which a border can run. -/
inductive BorderSide where
  | top
  | bottom
  | left
  | right
  deriving DecidableEq, Repr

/-- The line of a range that lies at a side. -/
def Range.edge (r : Range) : BorderSide → Nat
  | .top => r.top
  | .bottom => r.bottom
  | .left => r.left
  | .right => r.right

/-- The lines that a side lies along. -/
def BorderSide.axis : BorderSide → Axis
  | .top | .bottom => .row
  | .left | .right => .column

/-- The axis across. -/
def Axis.across : Axis → Axis
  | .row => .column
  | .column => .row

/-- The cell at a place of a line. -/
def CellRef.on (axis : Axis) (line place : Nat) : CellRef :=
  match axis with
  | .row => ⟨line, place⟩
  | .column => ⟨place, line⟩

/-- How far a span reaches along a line. -/
def Span.along (axis : Axis) (span : Span) : Nat :=
  match axis with
  | .row => span.cols
  | .column => span.rows

/-- The cells of a line at which a walk from one end of a range to the other stops. -/
def lineStops (s : Rows) (r : Range) (axis : Axis) (line : Nat) : List CellRef :=
  (stops (fun place => (s.span (.on axis line place)).along axis) (r.lastLine axis.across)
    (r.lastLine axis.across - r.firstLine axis.across + 1) (r.firstLine axis.across)).map
    (CellRef.on axis line)

/-- The cells at which a walk along a side of a range stops. -/
def sideStops (s : Rows) (r : Range) (d : BorderSide) : List CellRef :=
  lineStops s r d.axis (r.edge d)

theorem CellRef.on_line (axis : Axis) (c : CellRef) :
    CellRef.on axis (c.line axis) (c.line axis.across) = c := by
  cases axis <;> rfl

theorem CellRef.line_on (axis : Axis) (line place : Nat) :
    (CellRef.on axis line place).line axis = line ∧
      (CellRef.on axis line place).line axis.across = place := by
  cases axis <;> exact ⟨rfl, rfl⟩

theorem Range.mem_on_iff {r : Range} {axis : Axis} {line place : Nat} :
    r.mem (.on axis line place) = true ↔ (r.firstLine axis ≤ line ∧ line ≤ r.lastLine axis) ∧
      r.firstLine axis.across ≤ place ∧ place ≤ r.lastLine axis.across := by
  rw [Range.mem_iff]
  cases axis with
  | row => exact and_assoc.symm
  | column =>
    simp only [CellRef.on, Axis.across, Range.firstLine, Range.lastLine]
    omega

theorem Range.first_eq_iff {r : Range} {c : CellRef} :
    r.first = c ↔ r.top = c.row ∧ r.left = c.col :=
  CellRef.mk.injEq _ _ _ _ ▸ Iff.rfl

theorem Range.first_eq_on_iff {r : Range} {axis : Axis} {line place : Nat} :
    r.first = .on axis line place ↔ r.firstLine axis = line ∧ r.firstLine axis.across = place := by
  cases axis with
  | row => simp [Range.first, CellRef.on, Range.firstLine, Axis.across]
  | column => simp [Range.first, CellRef.on, Range.firstLine, Axis.across, and_comm]

@[simp] theorem Span.along_zero (axis : Axis) : Span.zero.along axis = 0 := by
  cases axis <;> rfl

theorem Range.along_span (r : Range) (axis : Axis) :
    r.span.along axis = r.lastLine axis.across - r.firstLine axis.across := by
  cases axis <;> rfl

/-- A walk in a range of one cell stops there. -/
theorem mem_sideStops_of_single (s : Rows) {r : Range} (hr : r.isMultiple = false) {c : CellRef}
    {d : BorderSide} : c ∈ sideStops s r d ↔ c = r.first := by
  have hone : r.bottom = r.top ∧ r.right = r.left := by
    have htop := r.top_le_bottom
    have hleft := r.left_le_right
    have hsingle := mt Range.isMultiple_iff.2 (Bool.eq_false_iff.1 hr)
    omega
  cases d <;> simp [sideStops, lineStops, stops, BorderSide.axis, Axis.across, CellRef.on,
    Range.edge, Range.firstLine, Range.lastLine, Range.first, hone]

/-- Does the outline of a range run along a side of a cell? It runs along the sides that
    a unit has in common with the range, and there the first cell stands for the unit. -/
def Outlined (m : Merges) (r : Range) (c : CellRef) (d : BorderSide) : Prop :=
  r.mem c = true ∧ (m.unitAt c).first = c ∧ (m.unitAt c).edge d = r.edge d

instance (m : Merges) (r : Range) (c : CellRef) (d : BorderSide) : Decidable (Outlined m r c d) :=
  inferInstanceAs (Decidable (_ ∧ _ ∧ _))

/-- Do the merges that meet a range lie in it, and have no more than one row if they end on
    its last row, and no more than one column if they end on its last column? -/
def Merges.FlushIn (m : Merges) (r : Range) : Prop :=
  ∀ x ∈ m.ranges, x.intersects r = true → x.within r = true ∧
    (x.bottom = r.bottom → x.top = x.bottom) ∧ (x.right = r.right → x.left = x.right)

instance (m : Merges) (r : Range) : Decidable (m.FlushIn r) :=
  inferInstanceAs (Decidable (∀ x ∈ m.ranges, _))

/-- All units of the range are flush in it then, since a single cell is. -/
theorem Merges.FlushIn.unitAt {m : Merges} {r : Range} (h : m.FlushIn r) {c : CellRef}
    (hr : r.mem c = true) : (m.unitAt c).within r = true ∧
      ((m.unitAt c).bottom = r.bottom → (m.unitAt c).top = (m.unitAt c).bottom) ∧
      ((m.unitAt c).right = r.right → (m.unitAt c).left = (m.unitAt c).right) := by
  rcases m.unitAt_cases c with ⟨hunit, hmem⟩ | ⟨hsingle, -⟩
  · exact h _ hunit (Range.intersects_of_mem hmem hr)
  · rw [hsingle, Range.within_iff]
    rw [Range.mem_iff] at hr
    exact ⟨⟨hr.1, hr.2.1, hr.2.2⟩, fun _ => rfl, fun _ => rfl⟩

/-- The first place of the block that a place of a line is in: of its unit, if that begins
    on the line, or the place itself. -/
def Merges.blockFirst (m : Merges) (axis : Axis) (line place : Nat) : Nat :=
  if (m.unitAt (.on axis line place)).firstLine axis = line then
    (m.unitAt (.on axis line place)).firstLine axis.across
  else place

/-- The last place of the block that a place of a line is in. -/
def Merges.blockLast (m : Merges) (axis : Axis) (line place : Nat) : Nat :=
  if (m.unitAt (.on axis line place)).firstLine axis = line then
    (m.unitAt (.on axis line place)).lastLine axis.across
  else place

namespace MirrorsOn

variable {m : Merges} {s : Rows} {r : Range}

section

variable {axis : Axis} {line : Nat}

/-- The units that begin on a line cut it into blocks, together with its other cells. -/
theorem blocks (h : MirrorsOn m s r) (hline : r.firstLine axis ≤ line ∧ line ≤ r.lastLine axis) :
    Blocks (r.firstLine axis.across) (r.lastLine axis.across) (m.blockFirst axis line)
      (m.blockLast axis line) where
  mem place := by
    have hmem := Range.mem_on_iff.1 (m.mem_unitAt (.on axis line place))
    unfold Merges.blockFirst Merges.blockLast
    split
    · exact hmem.2
    · exact ⟨Nat.le_refl place, Nat.le_refl place⟩
  same j k hj hj' hk hk' hle hle' := by
    have hunit := Range.mem_on_iff.1 (m.mem_unitAt (.on axis line j))
    unfold Merges.blockFirst Merges.blockLast at *
    by_cases hbegins : (m.unitAt (.on axis line j)).firstLine axis = line
    · rw [if_pos hbegins] at hle hle' ⊢
      have hsame : m.unitAt (.on axis line k) = m.unitAt (.on axis line j) :=
        h.unitAt_congr (Range.mem_on_iff.2 ⟨hline, hk, hk'⟩)
          (Range.mem_on_iff.2 ⟨hunit.1, hle, hle'⟩)
      rw [hsame, if_pos hbegins, if_pos hbegins, if_pos hbegins]
      exact ⟨rfl, rfl⟩
    · rw [if_neg hbegins] at hle hle'
      obtain rfl : k = j := Nat.le_antisymm hle' hle
      exact ⟨rfl, rfl⟩

/-- The mark of the first cell of a block has the rest of the block. All others have none. -/
theorem along_span (h : MirrorsOn m s r) {place : Nat} (hr : r.mem (.on axis line place) = true) :
    (s.span (.on axis line place)).along axis =
      if m.blockFirst axis line place = place then m.blockLast axis line place - place else 0 := by
  rw [h.span_eq hr]
  simp only [Range.first_eq_on_iff, Merges.blockFirst, Merges.blockLast]
  by_cases hbegins : (m.unitAt (.on axis line place)).firstLine axis = line
  · by_cases hfirst : (m.unitAt (.on axis line place)).firstLine axis.across = place
    · simp [hbegins, hfirst, Range.along_span]
    · simp [hbegins, hfirst]
  · simp [hbegins]

theorem mem_lineStops_iff (h : MirrorsOn m s r)
    (hline : r.firstLine axis ≤ line ∧ line ≤ r.lastLine axis) {c : CellRef} :
    c ∈ lineStops s r axis line ↔ r.mem c = true ∧ c.line axis = line ∧
      ((m.unitAt c).firstLine axis = line →
        (m.unitAt c).firstLine axis.across = c.line axis.across ∨
          (m.unitAt c).firstLine axis.across < r.firstLine axis.across) := by
  have hsteps : r.lastLine axis.across <
      r.firstLine axis.across + (r.lastLine axis.across - r.firstLine axis.across + 1) := by
    omega
  have hwalk := (h.blocks hline).mem_stops_iff
    (fun place hplace hplace' => h.along_span (Range.mem_on_iff.2 ⟨hline, hplace, hplace'⟩)) hsteps
  simp only [lineStops, List.mem_map, hwalk, Merges.blockFirst]
  refine ⟨?_, fun ⟨hr, hc, hstop⟩ => ?_⟩
  · rintro ⟨place, ⟨hplace, hplace', hstop⟩, rfl⟩
    obtain ⟨hon, hon'⟩ := CellRef.line_on axis line place
    refine ⟨Range.mem_on_iff.2 ⟨hline, hplace, hplace'⟩, hon, fun hbegins => ?_⟩
    simpa [hbegins, hon'] using hstop
  · subst hc
    rw [← CellRef.on_line axis c, Range.mem_on_iff] at hr
    refine ⟨c.line axis.across, ⟨hr.2.1, hr.2.2, ?_⟩, CellRef.on_line axis c⟩
    rw [CellRef.on_line]
    by_cases hbegins : (m.unitAt c).firstLine axis = c.line axis
    · simpa [hbegins] using hstop hbegins
    · simp [hbegins]

end

section

variable {c : CellRef} {d : BorderSide}

theorem mem_sideStops_iff (h : MirrorsOn m s r) :
    c ∈ sideStops s r d ↔ r.mem c = true ∧ c.line d.axis = r.edge d ∧
      ((m.unitAt c).firstLine d.axis = r.edge d →
        (m.unitAt c).firstLine d.axis.across = c.line d.axis.across ∨
          (m.unitAt c).firstLine d.axis.across < r.firstLine d.axis.across) := by
  have htop := r.top_le_bottom
  have hleft := r.left_le_right
  refine h.mem_lineStops_iff ?_
  cases d <;> simp only [BorderSide.axis, Range.edge, Range.firstLine, Range.lastLine] <;> omega

/-- Where all merges are flush, the walks along the sides stop where the outline runs. -/
theorem mem_sideStops_iff_outlined (h : MirrorsOn m s r) (hflush : m.FlushIn r) :
    c ∈ sideStops s r d ↔ Outlined m r c d := by
  rw [h.mem_sideStops_iff, Outlined]
  refine and_congr_right fun hr => ?_
  have hunit := hflush.unitAt hr
  have hmem := m.mem_unitAt c
  rw [Range.within_iff] at hunit
  rw [Range.mem_iff] at hmem
  rw [Range.first_eq_iff]
  cases d <;>
    simp only [BorderSide.axis, Axis.across, Range.edge, Range.firstLine, CellRef.line] <;> omega

end

/-- If the walks stop where the outline runs, all merges are flush. -/
theorem flushIn_of_sideStops (h : MirrorsOn m s r)
    (hsame : ∀ c d, c ∈ sideStops s r d ↔ Outlined m r c d) : m.FlushIn r := by
  intro x hx hmeets
  -- A merge is looked at in its cells on the edges of the range.
  have hside (d : BorderSide) (row col : Nat)
      (hr : r.top ≤ row ∧ row ≤ r.bottom ∧ r.left ≤ col ∧ col ≤ r.right)
      (hc : x.top ≤ row ∧ row ≤ x.bottom ∧ x.left ≤ col ∧ col ≤ x.right) :
      (CellRef.line d.axis ⟨row, col⟩ = r.edge d ∧ (x.firstLine d.axis = r.edge d →
        x.firstLine d.axis.across = CellRef.line d.axis.across ⟨row, col⟩ ∨
          x.firstLine d.axis.across < r.firstLine d.axis.across)) ↔
      (x.top = row ∧ x.left = col) ∧ x.edge d = r.edge d := by
    have hin : r.mem ⟨row, col⟩ = true := Range.mem_iff.2 hr
    have hunit : m.unitAt ⟨row, col⟩ = x := h.unitAt_eq hx hin (Range.mem_iff.2 hc)
    have hiff := hsame ⟨row, col⟩ d
    rw [h.mem_sideStops_iff, Outlined, Range.first_eq_iff, hunit] at hiff
    simpa only [hin, true_and, and_assoc] using hiff
  rw [Range.intersects_iff] at hmeets
  have hx₁ := x.top_le_bottom
  have hx₂ := x.left_le_right
  have hr₁ := r.top_le_bottom
  have hr₂ := r.left_le_right
  have htop : r.top ≤ x.top := by
    by_contra hout
    have hcell := (hside .top r.top (max x.left r.left) (by omega) (by omega)).1
      ⟨rfl, fun hbegins => absurd (Nat.le_of_eq hbegins.symm) hout⟩
    exact hout (Nat.le_of_eq hcell.2.symm)
  have hleft : r.left ≤ x.left := by
    by_contra hout
    have hcell := (hside .left (max x.top r.top) r.left (by omega) (by omega)).1
      ⟨rfl, fun hbegins => absurd (Nat.le_of_eq hbegins.symm) hout⟩
    exact hout (Nat.le_of_eq hcell.2.symm)
  have hbottom (hend : r.bottom ≤ x.bottom) : x.top = r.bottom ∧ x.bottom = r.bottom := by
    have hcell := (hside .bottom r.bottom x.left (by omega) (by omega)).1
      ⟨rfl, fun _ => .inl rfl⟩
    exact ⟨hcell.1.1, hcell.2⟩
  have hright (hend : r.right ≤ x.right) : x.left = r.right ∧ x.right = r.right := by
    have hcell := (hside .right x.top r.right (by omega) (by omega)).1
      ⟨rfl, fun _ => .inl rfl⟩
    exact ⟨hcell.1.2, hcell.2⟩
  rw [Range.within_iff]
  omega

/-- The walks along the sides stop where the outline runs just if all merges are flush. -/
theorem flushIn_iff (h : MirrorsOn m s r) :
    m.FlushIn r ↔ ∀ c d, c ∈ sideStops s r d ↔ Outlined m r c d :=
  ⟨fun hflush _ _ => h.mem_sideStops_iff_outlined hflush, h.flushIn_of_sideStops⟩

end MirrorsOn

end Worksheet
