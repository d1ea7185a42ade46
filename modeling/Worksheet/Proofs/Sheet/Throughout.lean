import Worksheet.Proofs.History
import Worksheet.Proofs.Sheet.Transaction
import Worksheet.Proofs.Snapshot

/-!
# What Holds Throughout a Session

Properties of all states that a session can come to.

A sheet can go to more states than the present one: the history holds texts of
others, and while a text is typed the state before it is put aside. A property that
is to hold in every state must hold in all of these. Undoing and redoing then only
exchange them, so there is nothing left to show but that the property survives being
written down and read back, and that a change keeps it.

## Main definitions

* `Snapshot.Lasts`: A property that survives being written, read back and restored.
* `Sheet.Throughout`: A property of all states that a sheet can go to.

## Theorems

* `Sheet.Throughout.run`: One command, if a change keeps the property.
* `Sheet.throughout_runAll`: A session.
-/

namespace Worksheet

/-- Does a property of states survive being written, read back and restored? -/
structure Snapshot.Lasts (P : Snapshot → Prop) : Prop where
  reread : ∀ d d', ofText? d.toText = some d' → P d → P d'
  restored : ∀ (s : Sheet) d, P d → P (s.restore d).snapshot

namespace Sheet

/-- Does a property hold of the state of a sheet and of every other state that the
    sheet can go to? -/
structure Throughout (P : Snapshot → Prop) (s : Sheet) : Prop where
  present : P s.snapshot
  history : ∀ text ∈ s.history.past ++ s.history.future, ∀ d,
    Snapshot.ofText? text = some d → P d
  pending : ∀ d ∈ s.pending, P d

/-- A new sheet has no other states. -/
theorem throughout_new {P : Snapshot → Prop} {name : String} {settings : Settings}
    (h : P (Sheet.new name settings).snapshot) : Throughout P (Sheet.new name settings) :=
  ⟨h, by simp [Sheet.new], nofun⟩

namespace Throughout

variable {P : Snapshot → Prop} {s : Sheet}

/-- What was put aside is an earlier state, or else the present one. -/
theorem aside (h : Throughout P s) : P (s.pending.getD s.snapshot) := by
  cases hpending : s.pending with
  | none => exact h.present
  | some d => exact h.pending d hpending

theorem before (h : Throughout P s) (c : Command) : P (s.stateBefore c) := by
  unfold stateBefore
  split
  · exact h.aside
  · exact h.aside
  · exact h.present

theorem goTo (h : Throughout P s) (hP : Snapshot.Lasts P) {restored : Restored Snapshot}
    (hrestored : ∀ d history, restored = .state d history →
      (∃ text ∈ s.history.past ++ s.history.future, Snapshot.ofText? text = some d) ∧
        ∀ x ∈ history.past ++ history.future,
          x = s.snapshot.toText ∨ x ∈ s.history.past ++ s.history.future) :
    Throughout P (s.goTo restored).1 := by
  cases restored with
  | nothing | unreadable => exact h
  | state d history =>
    obtain ⟨⟨text, htext, hread⟩, hhistory⟩ := hrestored d history rfl
    refine ⟨hP.restored _ d (h.history text htext d hread), fun x hx d' hd' => ?_, nofun⟩
    rcases hhistory x hx with rfl | hx
    · exact hP.reread _ d' hd' h.present
    · exact h.history x hx d' hd'

theorem undo (h : Throughout P s) (hP : Snapshot.Lasts P) : Throughout P s.undo.1 := by
  unfold Sheet.undo
  split
  · exact h.goTo hP fun d history => History.mem_of_undo
  · exact h

theorem redo (h : Throughout P s) (hP : Snapshot.Lasts P) : Throughout P s.redo.1 := by
  unfold Sheet.redo
  split
  · exact h.goTo hP fun d history => History.mem_of_redo
  · exact h

/-- A command keeps a property in all states, if the changes do in the present one. -/
theorem run (h : Throughout P s) (hP : Snapshot.Lasts P) (c : Command)
    (hchange : c.role = .transaction ∨ c.role = .input → P (s.run c).1.snapshot) :
    Throughout P (s.run c).1 := by
  cases hrole : c.role with
  | session =>
    have hsame := run_session s hrole
    refine ⟨?_, ?_, ?_⟩
    · rw [hsame.snapshot]
      exact h.present
    · rw [hsame.history]
      exact h.history
    · rw [hsame.pending]
      exact h.pending
  | transaction =>
    have hpresent := hchange (.inl hrole)
    have hrun := allOrNothing_run s hrole
    generalize s.run c = result at hrun hpresent ⊢
    cases hrun with
    | refused => exact h
    | made hmade =>
      refine ⟨hpresent, fun text htext d hd => ?_, ?_⟩
      · -- The state before the change was put on top of the past.
        simp only [hmade.history, List.append_nil, List.mem_cons] at htext
        rcases htext with rfl | htext
        · exact hP.reread _ d hd (h.before c)
        · exact h.history text (List.mem_append_left _ htext) d hd
      · rw [hmade.pending]
        exact nofun
  | input =>
    have hpresent := hchange (.inr hrole)
    by_cases hwritable : s.isWritable = true
    · have haside := run_input hwritable hrole
      refine ⟨hpresent, ?_, ?_⟩
      · rw [haside.history]
        exact h.history
      · rw [haside.pending]
        intro d hd
        cases hd
        exact h.aside
    · rw [run_input_ignored hwritable hrole]
      exact h
  | undo =>
    cases c with
    | undo => exact h.undo hP
    | typeText c text state | typeActive text state => cases state <;> cases hrole
    | _ => cases hrole
  | redo =>
    cases c with
    | redo => exact h.redo hP
    | typeText c text state | typeActive text state => cases state <;> cases hrole
    | _ => cases hrole

end Throughout

/-- What every change keeps holds in every state of a session, also of those that are
    undone and redone. -/
theorem throughout_runAll {P : Snapshot → Prop} (hP : Snapshot.Lasts P)
    (hchange : ∀ (s : Sheet) c, c.role = .transaction ∨ c.role = .input → P s.snapshot →
      P (s.run c).1.snapshot) {s : Sheet} (h : Throughout P s) (commands : List Command) :
    Throughout P (s.runAll commands) := by
  induction commands generalizing s with
  | nil => exact h
  | cons c cs ih => exact ih (h.run hP c fun hrole => hchange s c hrole h.present)

end Sheet

end Worksheet
