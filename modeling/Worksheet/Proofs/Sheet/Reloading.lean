import Worksheet.Proofs.Sheet.Recollection

/-!
# Saving and Reloading

A sheet that is saved and loaded again goes on as if nothing had happened.

What is saved is less than what a sheet is. The history is not saved, and neither
are the marks that refused texts have left, the scroll position and the rules that
cover nothing any more. All of that is memory, as long as the row view is up to date
and there are rows and columns, which every step keeps so. The reloaded sheet may
therefore be told apart by adding a validator whose rule was not saved, which gets a
new place behind all others, and by nothing else.

## Main definitions

* `Sheet.reloaded`: The sheet after it was saved and loaded.

## Theorems

* `Sheet.steady_actAll`: What holds of a sheet whatever was done to it.
* `Sheet.reloaded_eq`: What is lost in reloading.
* `Sheet.observe_reloaded`: Reloading is not observed.
* `Sheet.observe_reloaded_abandoned`: Except by a validator whose rule was lost.
-/

namespace Worksheet

namespace Sheet

variable {s : Sheet}

/-- A new sheet with the same settings into which the saved part of a sheet was loaded.
    It is given the same selection and clipboard, and some scroll position. -/
def reloaded (s : Sheet) (name : String) (scroll : Scroll) : Sheet :=
  { (new name s.settings).restore s.snapshot with
    selection := s.selection
    clipboard := s.clipboard
    scroll }

theorem fresh_commit (h : s.Fresh) (change : Sheet → Sheet) : (s.commit change).1.Fresh := by
  unfold commit
  split
  · exact fun _ => rfl
  · exact h

theorem fresh_goTo (h : s.Fresh) (r : Restored Snapshot) : (s.goTo r).1.Fresh := by
  cases r with
  | state d history => exact fun _ => rfl
  | nothing | unreadable => exact h

/-- The view is not computed anew while a text is typed, but then one is put aside. -/
theorem fresh_typeText (h : s.Fresh) (c : CellRef) (text : String) (state : EditState) :
    (s.typeText c text state).1.Fresh := by
  unfold typeText
  split
  · cases state with
    | input => exact fun hpending => by cases hpending
    | finished => exact fun _ => rfl
  · exact h

theorem fresh_typeActive (h : s.Fresh) (text : String) (state : EditState) :
    (s.typeActive text state).1.Fresh := by
  simp only [typeActive, typeText]
  by_cases hwritable : s.isWritable = true
  · simp only [if_pos hwritable]
    cases state with
    | input => exact fun hpending => by cases hpending
    | finished => exact fun _ => rfl
  · simp only [if_neg hwritable]
    exact h

theorem fresh_run (h : s.Fresh) (c : Command) : (s.run c).1.Fresh := by
  by_cases hblind : c.isBlind = true
  · cases runs s hblind with
    | commits f hf hrun =>
      rw [show s.run c = s.commit f from hrun s.memory]
      exact fresh_commit h f
    | shows f o hf hfresh hrun =>
      rw [show s.run c = (f s, o) from hrun s.memory]
      exact hfresh h
  · have hscroll (scroll : Scroll) (here : Bool) :
        (if here then (s, Outcome.ignored) else ({ s with scroll }, .applied)).1.Fresh := by
      split <;> exact h
    cases c with
    | undo =>
      simp only [run, undo]
      split
      · exact fresh_goTo h _
      · exact h
    | redo =>
      simp only [run, redo]
      split
      · exact fresh_goTo h _
      · exact h
    | typeText c text state => exact fresh_typeText h c text state
    | typeActive text state => exact fresh_typeActive h text state
    | addRule mode r v => exact fresh_commit h _
    | removeRules =>
      simp only [run, removeRules, commitOnSelection]
      split
      · exact fresh_commit h _
      · exact h
    | scrollX x => exact hscroll _ _
    | scrollY y => exact hscroll _ _
    | _ => exact absurd rfl hblind

/-- A restored sheet has as many lines as the settings say, if the state had none. -/
theorem dimensioned_restored (s : Sheet) (d : Snapshot) : Dimensioned (s.restore d) := by
  have hcount {count least : Nat} (h : (if count = 0 then least else count) = 0) : least = 0 := by
    split at h
    · exact h
    · contradiction
  exact ⟨hcount, hcount⟩

theorem dimensioned_goTo (h : Dimensioned s) (r : Restored Snapshot) :
    Dimensioned (s.goTo r).1 := by
  cases r with
  | state d history =>
    have hrestored := dimensioned_restored { s with history } d
    exact ⟨hrestored.rows, hrestored.cols⟩
  | nothing | unreadable => exact h

theorem Dimensioned.congr {s' : Sheet} (h : Dimensioned s) (hrows : s'.rows.len = s.rows.len)
    (hcols : s'.cols.len = s.cols.len) (hsettings : s'.settings = s.settings) :
    Dimensioned s' where
  rows := by
    rw [hrows, hsettings]
    exact h.rows
  cols := by
    rw [hcols, hsettings]
    exact h.cols

theorem dimensioned_run (h : Dimensioned s) (c : Command) : Dimensioned (s.run c).1 := by
  cases hrole : c.role with
  | session =>
    have hsame := run_session s hrole
    exact h.congr (congrArg (fun d => d.rows.len) hsame.snapshot)
      (congrArg (fun d => d.cols.len) hsame.snapshot) hsame.settings
  | transaction =>
    have hrun := allOrNothing_run s hrole
    generalize s.run c = result at hrun
    cases hrun with
    | refused => exact h
    | made hmade =>
      refine ⟨?_, ?_⟩
      · rw [hmade.settings]
        exact h.rows ∘ hmade.rows
      · rw [hmade.settings]
        exact h.cols ∘ hmade.cols
  | input =>
    by_cases hwritable : s.isWritable = true
    · have haside := run_input hwritable hrole
      exact h.congr haside.rows (congrArg Columns.len haside.cols) haside.settings
    · rw [run_input_ignored hwritable hrole]
      exact h
  | undo | redo =>
    cases c with
    | undo =>
      simp only [run, undo]
      split
      · exact dimensioned_goTo h _
      · exact h
    | redo =>
      simp only [run, redo]
      split
      · exact dimensioned_goTo h _
      · exact h
    | typeText c text state | typeActive text state => cases state <;> cases hrole
    | _ => cases hrole

/-- Whatever is done to a sheet, its row view is up to date when no text is typed, and it has
    rows and columns. -/
theorem steady_actAll (h : s.Fresh ∧ Dimensioned s) (actions : List Action) :
    (s.actAll actions).Fresh ∧ Dimensioned (s.actAll actions) := by
  induction actions generalizing s with
  | nil => exact h
  | cons a as ih =>
    refine ih ?_
    cases a with
    | run c => exact ⟨fresh_run h.1 c, dimensioned_run h.2 c⟩
    | rename name => exact ⟨h.1, h.2.rows, h.2.cols⟩
    | replace d => exact ⟨fun _ => rfl, dimensioned_restored s d⟩
    | load text =>
      simp only [act, load]
      cases Snapshot.ofText? text with
      | some d => exact ⟨fun _ => rfl, dimensioned_restored s d⟩
      | none => exact h

/-- What is lost in reloading is all in the memory. -/
theorem reloaded_eq (hfresh : s.Fresh) (hlen : Dimensioned s) (hpending : s.pending = none)
    (name : String) (scroll : Scroll) :
    s.reloaded name scroll = s.remember { rules := .ofSaved s.rules.saved, scroll } := by
  have hrows : (s.reloaded name scroll).rows = s.rows :=
    congrArg (Rows.mk · s.rows.rows) (count_eq hlen.rows)
  have hcols : (s.reloaded name scroll).cols = s.cols :=
    congrArg (Columns.mk · s.cols.cols) (count_eq hlen.cols)
  have hview : (s.reloaded name scroll).view = s.view := (hfresh hpending).symm
  have hnone : (s.reloaded name scroll).pending = s.pending := hpending.symm
  -- All other fields are taken over as they are.
  calc s.reloaded name scroll
      = { s.remember { rules := .ofSaved s.rules.saved, scroll } with
          rows := (s.reloaded name scroll).rows
          cols := (s.reloaded name scroll).cols
          view := (s.reloaded name scroll).view
          pending := (s.reloaded name scroll).pending } := rfl
    _ = s.remember { rules := .ofSaved s.rules.saved, scroll } := by
        rw [hrows, hcols, hview, hnone]
        rfl

/-- Saving and reloading is not observed: a sheet that was made in any way and whose text is
    not being typed, and the sheet that is loaded with what would be saved, answer the same
    and save the same at every step, as long as no validator is added whose rule was not
    saved. -/
theorem observe_reloaded (name name' : String) (settings : Settings) (past actions : List Action)
    (scroll : Scroll) (hpending : ((new name settings).actAll past).pending = none)
    (htravels : ∀ a ∈ actions, a.travels = false)
    (hscrolls : ∀ a ∈ actions, a.scrolls = true →
      scroll = ((new name settings).actAll past).scroll)
    (hrules : Avoids ((new name settings).actAll past).rules.Abandons actions) :
    (((new name settings).actAll past).reloaded name' scroll).observe actions =
      ((new name settings).actAll past).observe actions := by
  generalize hs : (new name settings).actAll past = s at hpending hscrolls hrules ⊢
  have hsteady : s.Fresh ∧ Dimensioned s := by
    rw [← hs]
    exact steady_actAll ⟨fun _ => rfl, id, id⟩ past
  rw [reloaded_eq hsteady.1 hsteady.2 hpending]
  have hrecollects : Recollects s.rules.Abandons (scroll = s.scroll) s
      { rules := .ofSaved s.rules.saved, scroll } :=
    ⟨.filter fun v r hv hempty => ⟨r, hv, hempty⟩, id⟩
  exact observe_remember hrecollects htravels hscrolls hrules

/-- A telephone number is asked for in the first cell, then nothing is any more, and then an
    address for mail is. -/
def ruleAbandoned : List Action :=
  [.run (.addRule "cell" (.single .origin) { kind := .phone }),
    .run (.select (.single .origin)),
    .run .removeRules,
    .run (.addRule "cell" (.single .origin) { kind := .email })]

/-- It is so for a sheet that has lost a rule, if what is done then is typing a text, adding
    the other validator to a cell, inserting rows and removing the rules of the first cell. -/
theorem observe_reloaded_rules :
    (((new "" {}).actAll ruleAbandoned).pending = none ∧
        Avoids ((new "" {}).actAll ruleAbandoned).rules.Abandons
          [.run (.typeText .origin "=A2" .finished),
            .run (.addRule "cell" (.single ⟨2, 1⟩) { kind := .email }),
            .run (.insertAt .row 1 2), .run .removeRules]) ∧
      (((new "" {}).actAll ruleAbandoned).reloaded "copy" {}).observe
          [.run (.typeText .origin "=A2" .finished),
            .run (.addRule "cell" (.single ⟨2, 1⟩) { kind := .email }),
            .run (.insertAt .row 1 2), .run .removeRules] =
        ((new "" {}).actAll ruleAbandoned).observe
          [.run (.typeText .origin "=A2" .finished),
            .run (.addRule "cell" (.single ⟨2, 1⟩) { kind := .email }),
            .run (.insertAt .row 1 2), .run .removeRules] := by
  have hpending : ((new "" {}).actAll ruleAbandoned).pending = none := by decide
  have hsaved : ¬((new "" {}).actAll ruleAbandoned).rules.Abandons { kind := .email } := by
    rintro ⟨r, hr, hempty⟩
    have hrefs : (((new "" {}).actAll ruleAbandoned).rules.rules.find?
        (fun r => r.validator = { kind := .email })).map Rule.refs ≠ some [] := by decide
    rw [hr, Option.map_some, hempty] at hrefs
    exact hrefs rfl
  have hrules : Avoids ((new "" {}).actAll ruleAbandoned).rules.Abandons
      [.run (.typeText .origin "=A2" .finished),
        .run (.addRule "cell" (.single ⟨2, 1⟩) { kind := .email }),
        .run (.insertAt .row 1 2), .run .removeRules] := by
    refine ⟨nofun, fun v hv => ?_, nofun, nofun, trivial⟩
    obtain rfl : { kind := .email } = v := by simpa [Action.validator?] using hv
    exact hsaved
  exact ⟨⟨hpending, hrules⟩,
    observe_reloaded "" "copy" {} ruleAbandoned _ {} hpending (by decide) (by decide) hrules⟩

/-- A validator whose rule was lost is put behind the others after reloading, and before
    them otherwise. -/
theorem observe_reloaded_abandoned :
    (((new "" {}).actAll ruleAbandoned).pending = none ∧
        ((new "" {}).actAll ruleAbandoned).scroll = {}) ∧
      (((new "" {}).actAll ruleAbandoned).reloaded "" {}).observe
          [.run (.addRule "cell" (.single ⟨0, 1⟩) { kind := .phone })] ≠
        ((new "" {}).actAll ruleAbandoned).observe
          [.run (.addRule "cell" (.single ⟨0, 1⟩) { kind := .phone })] := by
  refine ⟨⟨by decide, rfl⟩, fun heq => ?_⟩
  -- The order in which the rules are saved is another one.
  have horder := congrArg (List.map fun seen => seen.2.2.rules.map Rule.validator) heq
  revert horder
  decide

end Sheet

end Worksheet
