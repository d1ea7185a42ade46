/-!
# History

Undoing and redoing.

Two stacks hold the encoded states before and after the present one, the
nearest first. Recording a state discards everything that could be redone.
Undoing takes the nearest past state and puts the present one on the other
stack, and redoing is the same the other way round.

States are stored encoded and decoded when they are restored, so what the
history holds cannot change along with the sheet. An entry that cannot be
decoded is left where it is.

## Main definitions

* `History`: The two stacks.
* `record`, `undo`, `redo`: The operations.
* `Restored`: What undoing or redoing gives.
-/

namespace Worksheet

/-- Encoded states before and after the present one, the nearest first. -/
structure History where
  past : List String := []
  future : List String := []
  deriving DecidableEq, Repr

/-- What undoing or redoing gives. -/
inductive Restored (α : Type) where
  /-- There is no state to restore. -/
  | nothing
  /-- The nearest entry cannot be decoded. -/
  | unreadable
  /-- A state, and the history seen from it. -/
  | state (a : α) (h : History)

namespace History

/-- The history in which nothing has happened. -/
def empty : History := {}

/-- Record the state before a change. -/
def record (h : History) (before : String) : History :=
  ⟨before :: h.past, []⟩

/-- Go back to the nearest past state, keeping the present one. -/
def undo {α : Type} (decode : String → Option α) (present : String) (h : History) : Restored α :=
  match h.past with
  | [] => .nothing
  | entry :: past => match decode entry with
    | some a => .state a ⟨past, present :: h.future⟩
    | none => .unreadable

/-- Go forward to the nearest undone state, keeping the present one. -/
def redo {α : Type} (decode : String → Option α) (present : String) (h : History) : Restored α :=
  match h.future with
  | [] => .nothing
  | entry :: future => match decode entry with
    | some a => .state a ⟨present :: h.past, future⟩
    | none => .unreadable

/-- Is there a state to go back to? -/
def canUndo (h : History) : Bool := !h.past.isEmpty

/-- Is there a state to go forward to? -/
def canRedo (h : History) : Bool := !h.future.isEmpty

end History

end Worksheet
