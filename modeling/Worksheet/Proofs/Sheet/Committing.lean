import Worksheet.Sheet.State

/-!
# Commits

What a commit does, whatever it changes.

A sheet that is open for reading only is left alone. On any other the history takes note
of the state before, the change is made, and the event is reported. None of the two is
about the content, so of the content a commit keeps what its change keeps.

## Main definitions

* `Sheet.recorded`: The sheet whose history has taken note of it.

## Theorems

* `Sheet.commit_of_writable`: A commit on a sheet that can be changed.
* `Sheet.commit_keeps`: What is kept by a change is kept by its commit.
-/

namespace Worksheet

namespace Sheet

variable {s : Sheet}

/-- The sheet whose history has taken note of it. -/
def recorded (s : Sheet) : Sheet :=
  { s with history := s.history.record s.snapshot.toText, pending := none }

/-- A commit on a sheet that can be changed. -/
theorem commit_of_writable (h : s.isWritable = true) (change : Sheet → Sheet) :
    s.commit change = ((change s.recorded).refreshView.emit .changed, .applied) := if_pos h

theorem commit_applied_iff {change : Sheet → Sheet} :
    (s.commit change).2 = .applied ↔ s.isWritable = true := by
  unfold commit
  split
  · rename_i h
    exact iff_of_true rfl h
  · rename_i h
    exact iff_of_false nofun h

/-- Of what would be saved, a commit keeps what its change keeps. -/
theorem commit_keeps {P : Snapshot → Prop} {change : Sheet → Sheet}
    (h : P s.snapshot) (hchange : P (change s.recorded).snapshot) :
    P (s.commit change).1.snapshot := by
  unfold commit
  split
  · exact hchange
  · exact h

theorem commitOnSelection_keeps {P : Snapshot → Prop} {change : Range → Sheet → Sheet}
    (h : P s.snapshot) (hchange : ∀ r, P (change r s.recorded).snapshot) :
    P (s.commitOnSelection change).1.snapshot := by
  unfold commitOnSelection
  split
  · exact commit_keeps h (hchange _)
  · exact h

end Sheet

end Worksheet
