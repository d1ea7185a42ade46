import Worksheet.Json.Record

/-!
# Merged Cells

The registry of a sheet's merges, in the order they were made.

Adding a merge absorbs the merges that lie inside it. A merge that only
partly overlaps is not looked for here; whoever adds one has checked that
there is none.

When lines are inserted or deleted, a merge past the edit moves and a merge
across it grows or shrinks. The cell that anchors a merge records its span,
so the changes of span are reported beside the new registry. A merge whose
first line is deleted is gone, and so is one that shrinks to a single cell.

## Main definitions

* `Merges`: The registry.
* `add`, `removeWithin`, `firstAt?`, `meeting`, `meets`: Basic operations.
* `grow`: A range widened until no merge sticks out of it.
* `shift`: The registry after lines are inserted or deleted.
* `moveWithin`: The merges of a block moved along with it.
-/

namespace Worksheet

/-- The direction that an edit of lines runs along. -/
inductive Axis where
  | row
  | column
  deriving DecidableEq, Repr

/-- The words for the axes. -/
def Axis.words : List (String × Axis) := [("row", .row), ("column", .column)]

/-- The displacement by `n` lines along an axis. -/
def Axis.displacement (axis : Axis) (n : Int) : Displacement :=
  match axis with
  | .row => ⟨0, n⟩
  | .column => ⟨n, 0⟩

/-- How the span of the merge anchored at a cell changes. -/
structure SpanChange where
  anchor : CellRef
  change : Displacement
  deriving DecidableEq, Repr

namespace Range

/-- The first line of a range along an axis. -/
def firstLine (axis : Axis) (r : Range) : Nat :=
  match axis with
  | .row => r.top
  | .column => r.left

/-- The last line of a range along an axis. -/
def lastLine (axis : Axis) (r : Range) : Nat :=
  match axis with
  | .row => r.bottom
  | .column => r.right

/-- A range with `d` lines more along an axis, put on at its far end, as far as
    there are indices. -/
def stretch (axis : Axis) (d : Int) (r : Range) : Range :=
  match axis with
  | .row => between r.first ⟨Address.clamp (r.bottom + d), r.right⟩
  | .column => between r.first ⟨r.bottom, Address.clamp (r.right + d)⟩

end Range

/-- The registered merges, the oldest first. -/
structure Merges where
  ranges : List Range := []
  deriving DecidableEq, Repr

namespace Merges

/-- The registry without merges. -/
def empty : Merges := {}

/-- The first merge that covers a cell. -/
def firstAt? (m : Merges) (c : CellRef) : Option Range := m.ranges.find? fun r => r.mem c

/-- The merges that share a cell with a range. -/
def meeting (m : Merges) (r : Range) : List Range := m.ranges.filter fun x => x.intersects r

/-- Does any merge share a cell with a range? -/
def meets (m : Merges) (r : Range) : Bool := m.ranges.any fun x => x.intersects r

/-- The first merge that shares a cell with a range and sticks out of it. -/
def straddling? (m : Merges) (r : Range) : Option Range :=
  m.ranges.find? fun x => x.intersects r && !x.within r

/-- A range and every merge it meets. -/
def growOnce (m : Merges) (r : Range) : Range := (m.meeting r).foldl Range.union r

/-- Widen a range as long as a merge sticks out of it, at most as many times
    as the first argument says. -/
def growFor (m : Merges) : Nat → Range → Range
  | 0, r => r
  | fuel + 1, r => if m.growOnce r = r then r else m.growFor fuel (m.growOnce r)

/-- The smallest range that holds `r` and every merge it meets. Every round
    that widens the range takes in a merge that was not inside it before, so
    there are at most as many rounds as merges. -/
def grow (m : Merges) (r : Range) : Range := m.growFor (m.ranges.length + 1) r

/-- Drop the merges that lie inside a range. -/
def removeWithin (m : Merges) (r : Range) : Merges :=
  ⟨m.ranges.filter fun x => !x.within r⟩

/-- Register a merge; those inside it are absorbed. -/
def add (m : Merges) (r : Range) : Merges :=
  ⟨(m.removeWithin r).ranges ++ [r]⟩

/-- What becomes of one merge when `n` lines are inserted at `index`, or `-n`
    deleted from there on, and the change of its span when the edit goes
    through it. -/
def shiftRange (axis : Axis) (index : Nat) (n : Int) (r : Range) :
    Option Range × Option SpanChange :=
  let start := r.firstLine axis
  let stop := r.lastLine axis
  if 0 < n then
    -- Lines put in before the merge push it on, and lines put into it widen it.
    if index ≤ start then (r.move? (axis.displacement n), none)
    else if index ≤ stop then (some (r.stretch axis n), some ⟨r.first, axis.displacement n⟩)
    else (some r, none)
  else
    -- The deleted lines run up to `last`, counted in sixty-four bits.
    let last := (index + n.natAbs - 1) % Address.gridLimit
    if last < start then (r.move? (axis.displacement n), none)
    else if stop < index then (some r, none)
    else if start < index then
      -- The first line stays, so the merge does, without the lines it loses.
      let lost := Address.signed ((index : Int) - (min stop last + 1 : Nat))
      let shrunk := r.stretch axis lost
      (if 1 < shrunk.tally then some shrunk else none, some ⟨r.first, axis.displacement lost⟩)
    else (none, none)

/-- The registry after `n` lines are inserted at `index`, or `-n` deleted from
    there on, and the changes of span in registry order. -/
def shift (m : Merges) (axis : Axis) (index : Nat) (n : Int) : Merges × List SpanChange :=
  if n = 0 then (m, [])
  else
    let moved := m.ranges.map (shiftRange axis index n)
    (⟨moved.filterMap Prod.fst⟩, moved.filterMap Prod.snd)

/-- Move the merges inside a range along with it. -/
def moveWithin (m : Merges) (r : Range) (d : Displacement) : Merges :=
  ⟨m.ranges.map fun x => if x.within r then (x.move? d).getD x else x⟩

/-- Read a registry from an array of ranges. -/
def ofJson? (j : Json) : Option Merges := (Json.list? Json.range? j).map Merges.mk

/-- The tree of a registry. -/
def toJson (m : Merges) : Json := .array (m.ranges.map Json.ofRange)

end Merges

end Worksheet
