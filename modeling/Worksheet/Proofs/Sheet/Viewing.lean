import Worksheet.Proofs.Sheet.Verdicts

/-!
# The View is up to Date

The rows that are shown are those that the filter makes of the present texts.

The row view is kept with the sheet and not computed when it is asked for, so every
change of the texts, the filters or the sort has to compute it anew. All do, except
typing that goes on, which shows a text before it counts as a change. While that
goes on the state before it is put aside, and whatever settles the text forgets
that state and computes the view. So the view can be out of date only in a sheet
with a state put aside, and tracing back where that came from leads to a text that
was typed and that nothing has settled since. Even then the view is one of the filter's
range and sort, since typing changes no more than the values of a filter.

## Main definitions

* `Action.types`, `Action.settles`: Beginning to type, and what ends it.
* `Sheet.Unsettled`: A session with a text that nothing has settled.
* `Sheet.ViewOfFilter`: A view of the range and the sort of the filter.

## Theorems

* `Sheet.aside_act`: What one action does to the state that is put aside.
* `Sheet.unsettled_of_pending`: Where a state that is put aside came from.
* `Sheet.view_after`: The view is up to date unless a text is unsettled.
* `Sheet.viewOfFilter_actAll`: The view has the range and the sort of the filter always.
-/

namespace Worksheet

namespace Action

/-- Does the action type a text without finishing it? -/
def types : Action → Bool
  | .run c => c.role == .input
  | .rename _ | .replace _ | .load _ => false

/-- Does the action change or replace the saved state for good, if it is carried out? -/
def settles : Action → Bool
  | .run c => c.role == .transaction || c.role == .undo || c.role == .redo
  | .replace _ | .load _ => true
  | .rename _ => false

end Action

namespace Sheet

/-- Is nothing carried out that settles a text? -/
def SettlesNothing (s : Sheet) : List Action → Prop
  | [] => True
  | a :: as => (a.settles = true → (s.act a).2 ≠ .applied) ∧ SettlesNothing (s.act a).1 as

/-- Was a text typed, and nothing was carried out since that settles it? -/
def Unsettled (s : Sheet) (actions : List Action) : Prop :=
  ∃ before a after, actions = before ++ a :: after ∧
    a.types = true ∧ ((s.actAll before).act a).2 = .applied ∧
    ((s.actAll before).act a).1.SettlesNothing after

theorem settlesNothing_append (s : Sheet) (as bs : List Action) :
    s.SettlesNothing (as ++ bs) ↔ s.SettlesNothing as ∧ (s.actAll as).SettlesNothing bs := by
  induction as generalizing s with
  | nil => exact (iff_of_eq (true_and _)).symm
  | cons a as ih =>
    rw [List.cons_append, SettlesNothing, SettlesNothing, ih, and_assoc]
    rfl

/-! ## What is put aside -/

/-- How an action can leave the state that is put aside, if there was any: it is dropped, a
    text is typed, or nothing has happened to it. -/
inductive Aside (s : Sheet) (a : Action) : Sheet × Outcome → Prop where
  | dropped {s' : Sheet} {o : Outcome} (h : s'.pending = none) : Aside s a (s', o)
  | typed {s' : Sheet} (h : a.types = true) : Aside s a (s', .applied)
  | kept {s' : Sheet} {o : Outcome} (h : s'.pending = s.pending)
    (hsettles : a.settles = true → o ≠ .applied) : Aside s a (s', o)

namespace Aside

variable {s : Sheet} {a : Action}

/-- An action that is refused or finds nothing to do. -/
theorem stays {o : Outcome} (h : o ≠ .applied) : Aside s a (s, o) := .kept rfl fun _ => h

theorem of_goTo (r : Restored Snapshot) : Aside s a (s.goTo r) := by
  cases r with
  | state d history => exact .dropped rfl
  | nothing | unreadable => exact .stays (by simp)

/-- Typing that goes on is refused by a sheet that is open for reading only. -/
theorem of_input {c : Command} (hc : c.role = .input) : Aside s (.run c) (s.run c) := by
  have htypes : (Action.run c).types = true := beq_iff_eq.2 hc
  by_cases hwritable : s.isWritable = true
  · cases c with
    | typeText c text state =>
      simp only [Sheet.run, typeText, if_pos hwritable]
      exact .typed htypes
    | typeActive text state =>
      simp only [Sheet.run, typeActive, typeText, if_pos hwritable]
      exact .typed htypes
    | _ => cases hc
  · cases c with
    | typeText c text state =>
      simp only [Sheet.run, typeText, if_neg hwritable]
      exact .stays (by simp)
    | typeActive text state =>
      simp only [Sheet.run, typeActive, typeText, if_neg hwritable]
      exact .stays (by simp)
    | _ => cases hc

theorem of_run (c : Command) : Aside s (.run c) (s.run c) := by
  cases hrole : c.role with
  | session =>
    refine .kept (run_session s hrole).pending fun hsettles => ?_
    simp [Action.settles, hrole] at hsettles
  | input => exact .of_input hrole
  | transaction =>
    have hrun := allOrNothing_run s hrole
    generalize s.run c = result at hrun
    cases hrun with
    | refused h => exact .stays h
    | made hmade => exact .dropped hmade.pending
  | undo | redo =>
    cases c with
    | undo =>
      simp only [Sheet.run, Sheet.undo]
      split
      · exact .of_goTo _
      · exact .stays (by simp)
    | redo =>
      simp only [Sheet.run, Sheet.redo]
      split
      · exact .of_goTo _
      · exact .stays (by simp)
    | typeText c text state | typeActive text state => cases state <;> cases hrole
    | _ => cases hrole

end Aside

/-- An action drops what is put aside, or a text is typed, or it is still put aside and
    nothing was settled. -/
theorem aside_act (s : Sheet) (a : Action) : Aside s a (s.act a) := by
  cases a with
  | run c => exact .of_run c
  | rename name => exact .kept rfl fun hsettles => absurd hsettles (by simp [Action.settles])
  | replace d => exact .dropped rfl
  | load text =>
    simp only [act, load]
    cases Snapshot.ofText? text with
    | some d => exact .dropped rfl
    | none => exact .stays (by simp)

/-- Where a state that is put aside came from: a text was typed, and nothing was carried
    out since that settles it. -/
theorem unsettled_of_pending {s : Sheet} (hs : s.pending = none) {actions : List Action}
    (h : (s.actAll actions).pending ≠ none) : s.Unsettled actions := by
  induction actions using List.reverseRecOn with
  | nil => exact absurd hs h
  | append_singleton as a ih =>
    have haside : Aside (s.actAll as) a ((s.actAll as).act a) := aside_act _ a
    rw [actAll_append, show (s.actAll as).actAll [a] = ((s.actAll as).act a).1 from rfl] at h
    generalize hresult : (s.actAll as).act a = result at haside h
    cases haside with
    | dropped hnone => exact absurd hnone h
    | typed htypes => exact ⟨as, a, [], rfl, htypes, by rw [hresult], trivial⟩
    | kept hkept hsettles =>
      -- It was put aside before, and the last action has not settled it either.
      obtain ⟨before, x, after, rfl, htypes, happlied, hafter⟩ := ih (hkept ▸ h)
      refine ⟨before, x, after ++ [a], by simp, htypes, happlied, ?_⟩
      rw [actAll_append] at hresult
      refine (settlesNothing_append _ after [a]).2 ⟨hafter, fun hsettling => ?_, trivial⟩
      have hlast : (((s.actAll before).act x).1.actAll after).act a = _ := hresult
      rw [hlast]
      exact hsettles hsettling

/-- The view is up to date in every state of every session, unless a text was typed that
    nothing has settled since: the hidden rows and the places of the others are those that
    the filters and the sort make of the present texts. -/
theorem view_after (name : String) (settings : Settings) (actions : List Action) :
    let s := (new name settings).actAll actions
    s.view = s.filter.rowView s.rows.content ∨ (new name settings).Unsettled actions := by
  intro s
  by_cases hpending : s.pending = none
  · exact .inl ((steady_actAll ⟨fun _ => rfl, id, id⟩ actions).1 hpending)
  · exact .inr (unsettled_of_pending rfl hpending)

/-- While a text is typed, a row that passes the filter no longer is shown all the same. -/
example :
    let s := (new "" {}).actAll
      [.run (.typeText ⟨1, 0⟩ "7" .finished), .run (.select (.between ⟨0, 0⟩ ⟨1, 0⟩)),
        .run .toggleFilter, .run (.setFilter 0 none .oneOf ["7"]),
        .run (.typeText ⟨1, 0⟩ "8" .input)]
    s.view.hidden = [] ∧ (s.filter.rowView s.rows.content).hidden = [1] := by
  decide

/-! ## While a text is typed -/

/-- Is the view what some texts and some filters of columns make it, in the range of the
    filter and with its sort? -/
def ViewOfFilter (s : Sheet) : Prop :=
  ∃ (a : AutoFilter) (text : CellRef → String),
    s.view = a.rowView text ∧ a.range = s.filter.range ∧ a.sort = s.filter.sort

namespace ViewOfFilter

variable {s s' : Sheet}

theorem of_fresh (h : s.Fresh) (hpending : s.pending = none) : s.ViewOfFilter :=
  ⟨s.filter, s.rows.content, h hpending, rfl, rfl⟩

theorem congr (h : s.ViewOfFilter) (hview : s'.view = s.view)
    (hrange : s'.filter.range = s.filter.range) (hsort : s'.filter.sort = s.filter.sort) :
    s'.ViewOfFilter := by
  obtain ⟨a, text, hrows, hin, hby⟩ := h
  exact ⟨a, text, hview.trans hrows, hin.trans hrange.symm, hby.trans hsort.symm⟩

theorem scroll (h : s.ViewOfFilter) (scroll : Scroll) (here : Bool) :
    (if here then (s, Outcome.ignored) else ({ s with scroll }, .applied)).1.ViewOfFilter := by
  cases here with
  | true => exact h
  | false => exact h.congr rfl rfl rfl

/-- What a session command changes is neither the filter nor the view, unless the view is
    computed anew. -/
theorem session (h : s.ViewOfFilter) {c : Command} (hc : c.role = .session) :
    (s.run c).1.ViewOfFilter := by
  cases c with
  | refreshView => exact ⟨s.filter, s.rows.content, rfl, rfl, rfl⟩
  | select | selectCell | selectRow | selectColumn | extendTo | clearClipboard =>
    exact h.congr rfl rfl rfl
  | copy =>
    simp only [run, copy]
    split <;> exact h.congr rfl rfl rfl
  | cut =>
    simp only [run, cut]
    split <;> exact h.congr rfl rfl rfl
  | scrollX x => exact h.scroll _ _
  | scrollY y => exact h.scroll _ _
  | typeText c text state | typeActive text state => cases state <;> cases hc
  | _ => cases hc

/-- Typing that goes on may change the values of a filter, but not what it is about. -/
theorem input (h : s.ViewOfFilter) {c : Command} (hc : c.role = .input) :
    (s.run c).1.ViewOfFilter := by
  by_cases hwritable : s.isWritable = true
  · cases c with
    | typeText c text state => cases state with
      | input =>
        simp only [run, typeText, if_pos hwritable]
        exact h.congr rfl rfl rfl
      | finished => cases hc
    | typeActive text state => cases state with
      | input =>
        simp only [run, typeActive, typeText, if_pos hwritable]
        exact h.congr rfl rfl rfl
      | finished => cases hc
    | _ => cases hc
  · rw [run_input_ignored hwritable hc]
    exact h

theorem goTo (h : s.ViewOfFilter) (r : Restored Snapshot) : (s.goTo r).1.ViewOfFilter := by
  cases r with
  | state d history => exact of_fresh (fun _ => rfl) rfl
  | nothing | unreadable => exact h

theorem command (h : s.ViewOfFilter) (hfresh : s.Fresh) (c : Command) :
    (s.run c).1.ViewOfFilter := by
  have hafter : (s.run c).1.Fresh := fresh_run hfresh c
  cases hrole : c.role with
  | session => exact h.session hrole
  | input => exact h.input hrole
  | transaction =>
    have hrun := allOrNothing_run s hrole
    generalize s.run c = result at hrun hafter
    cases hrun with
    | refused _ => exact h
    | made hmade => exact of_fresh hafter hmade.pending
  | undo | redo =>
    cases c with
    | undo =>
      simp only [run, undo]
      split
      · exact h.goTo _
      · exact h
    | redo =>
      simp only [run, redo]
      split
      · exact h.goTo _
      · exact h
    | typeText c text state | typeActive text state => cases state <;> cases hrole
    | _ => cases hrole

theorem act (h : s.ViewOfFilter) (hfresh : s.Fresh) (a : Action) :
    (s.act a).1.ViewOfFilter := by
  cases a with
  | run c => exact h.command hfresh c
  | rename name => exact h.congr rfl rfl rfl
  | replace d => exact of_fresh (fun _ => rfl) rfl
  | load text =>
    simp only [Sheet.act, load]
    cases Snapshot.ofText? text with
    | some d => exact of_fresh (fun _ => rfl) rfl
    | none => exact h

end ViewOfFilter

/-- In every state of every session the view is one of the range and the sort of the filter,
    also while a text is typed and the view waits for it. -/
theorem viewOfFilter_actAll (name : String) (settings : Settings) (actions : List Action) :
    ((new name settings).actAll actions).ViewOfFilter := by
  induction actions using List.reverseRecOn with
  | nil => exact ⟨{}, fun _ => "", rfl, rfl, rfl⟩
  | append_singleton as a ih =>
    have hsteady := steady_actAll (s := new name settings) ⟨fun _ => rfl, id, id⟩ as
    rw [actAll_append]
    exact ih.act hsteady.1 a

end Sheet

end Worksheet
