import Worksheet.History

/-!
# What the History Gives Back

What is restored was in the history, and the present state takes its place.

Nothing else comes into the history or out of it by undoing and redoing, so what holds of
all states that it held and of the present one holds of all that it holds afterwards.

## Theorems

* `of_undo_eq_state`, `of_redo_eq_state`: What is restored, and what is left.
* `mem_of_undo`, `mem_of_redo`: All of it was there before, or is the present state.
-/

namespace Worksheet

namespace History

variable {α : Type} {decode : String → Option α} {present : String} {h h' : History} {a : α}

/-- Undoing gives the nearest past state and puts the present one in front of the future. -/
theorem of_undo_eq_state (heq : h.undo decode present = .state a h') :
    ∃ text past, h.past = text :: past ∧ decode text = some a ∧
      h' = ⟨past, present :: h.future⟩ := by
  unfold undo at heq
  split at heq
  · cases heq
  · rename_i text past hpast
    split at heq
    · rename_i hread
      cases heq
      exact ⟨text, past, hpast, hread, rfl⟩
    · cases heq

/-- Redoing gives the nearest undone state and puts the present one in front of the past. -/
theorem of_redo_eq_state (heq : h.redo decode present = .state a h') :
    ∃ text future, h.future = text :: future ∧ decode text = some a ∧
      h' = ⟨present :: h.past, future⟩ := by
  unfold redo at heq
  split at heq
  · cases heq
  · rename_i text future hfuture
    split at heq
    · rename_i hread
      cases heq
      exact ⟨text, future, hfuture, hread, rfl⟩
    · cases heq

/-- The text that is taken from the past was there, and the present one is new. -/
theorem mem_of_undo (heq : h.undo decode present = .state a h') :
    (∃ text ∈ h.past ++ h.future, decode text = some a) ∧
      ∀ x ∈ h'.past ++ h'.future, x = present ∨ x ∈ h.past ++ h.future := by
  obtain ⟨text, past, hpast, hread, rfl⟩ := of_undo_eq_state heq
  rw [hpast]
  refine ⟨⟨text, List.mem_append_left _ List.mem_cons_self, hread⟩, fun x hx => ?_⟩
  rcases List.mem_append.1 hx with hx | hx
  · exact .inr (List.mem_append_left _ (List.mem_cons_of_mem _ hx))
  · exact (List.mem_cons.1 hx).imp_right (List.mem_append_right _)

/-- So it is with the text that is taken from the future. -/
theorem mem_of_redo (heq : h.redo decode present = .state a h') :
    (∃ text ∈ h.past ++ h.future, decode text = some a) ∧
      ∀ x ∈ h'.past ++ h'.future, x = present ∨ x ∈ h.past ++ h.future := by
  obtain ⟨text, future, hfuture, hread, rfl⟩ := of_redo_eq_state heq
  rw [hfuture]
  refine ⟨⟨text, List.mem_append_right _ List.mem_cons_self, hread⟩, fun x hx => ?_⟩
  rcases List.mem_append.1 hx with hx | hx
  · exact (List.mem_cons.1 hx).imp_right (List.mem_append_left _)
  · exact .inr (List.mem_append_right _ (List.mem_cons_of_mem _ hx))

end History

end Worksheet
