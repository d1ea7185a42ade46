import Worksheet.Proofs.Sheet.Memory
import Worksheet.Proofs.Sheet.Timeline

/-!
# Sheets That Differ in Their Memories

Two sheets with the same content are seen to do the same, whatever they remember.

What a sheet remembers besides its content is not seen in what it answers, except in
two ways. Scrolling says whether the position changed, so it matters where it was. And
a rule that covers nothing still has its place, which it gets back when its validator
is used again. So two sheets may be told apart by scrolling and by adding a validator
whose rule only one of them remembers, and by nothing else.

The rules that one of them remembers are those of the other without some that cover
nothing. Every step keeps it so, and what is observed of both is then the same.

## Main definitions

* `Action`, `Sheet.act`: Anything that is done to a sheet.
* `Sheet.observe`: What is seen of a sheet while actions are carried out.
* `Rules.Abandons`: A validator whose rule is not saved.
* `Omits`: Rules without some that cover nothing.
* `Sheet.Recollects`: A memory that a sheet goes on with in the same way.

## Theorems

* `Omits.addTo`: Adding a range keeps the relation.
* `Sheet.run_remember`: So does every command.
* `Sheet.observe_remember`: Sheets that differ in their memories are seen to do the same.
-/

namespace Worksheet

/-! ## Actions -/

/-- Anything that is done to a sheet: a command, or what comes from outside. -/
inductive Action where
  | run (c : Command)
  | rename (name : String)
  | replace (d : Snapshot)
  | load (text : String)

namespace Action

/-- Does the action go to a state of the history? -/
def travels : Action → Bool
  | .run .undo | .run .redo => true
  | _ => false

/-- Does the action scroll? -/
def scrolls : Action → Bool
  | .run (.scrollX _) | .run (.scrollY _) => true
  | _ => false

/-- The validator that the action adds. -/
def validator? : Action → Option Validator
  | .run (.addRule _ _ v) => some v
  | _ => none

end Action

/-- The rule that a validator would join covers nothing, so it is not saved. -/
def Rules.Abandons (s : Rules) (v : Validator) : Prop :=
  ∃ r, s.rules.find? (fun r => r.validator = v) = some r ∧ r.refs = []

/-- No validator that is lost is added, as long as the sheet is not replaced. -/
def Avoids (lost : Validator → Prop) : List Action → Prop
  | [] => True
  | .replace _ :: _ => True
  | .load text :: as => Snapshot.ofText? text = none → Avoids lost as
  | a :: as => (∀ v ∈ a.validator?, ¬lost v) ∧ Avoids lost as

/-- A list of actions adds nothing that is lost if nothing is. -/
theorem avoids_nothing (actions : List Action) : Avoids (fun _ => False) actions := by
  induction actions with
  | nil => trivial
  | cons a as ih =>
    cases a with
    | run c => exact ⟨fun _ _ => id, ih⟩
    | rename name => exact ⟨nofun, ih⟩
    | replace d => trivial
    | load text => exact fun _ => ih

namespace Sheet

/-- Do something to a sheet. -/
def act (s : Sheet) : Action → Sheet × Outcome
  | .run c => s.run c
  | .rename name => ({ s with name }, .applied)
  | .replace d => (s.restore d, .applied)
  | .load text => match s.load text with
    | .ok s' => (s', .applied)
    | .error e => (s, .rejected e)

/-- Do one thing after the other. -/
def actAll (s : Sheet) (actions : List Action) : Sheet :=
  actions.foldl (fun s a => (s.act a).1) s

/-- What is seen of a sheet at every step: what became of the action, what is selected
    then, and what would be saved. -/
def observe (s : Sheet) : List Action → List (Outcome × Selection × Snapshot)
  | [] => []
  | a :: as =>
    ((s.act a).2, (s.act a).1.selection, (s.act a).1.snapshot) :: (s.act a).1.observe as

end Sheet

/-! ## Rules -/

/-- Rules without some that cover nothing and whose validators are lost. A validator
    that an earlier rule has is as good as lost, since that rule is joined. -/
inductive Omits : (Validator → Prop) → List Rule → List Rule → Prop where
  | nil {lost : Validator → Prop} : Omits lost [] []
  | keep {lost : Validator → Prop} {r : Rule} {rs rs' : List Rule}
    (h : Omits (fun v => lost v ∨ v = r.validator) rs rs') : Omits lost (r :: rs) (r :: rs')
  | drop {lost : Validator → Prop} {r : Rule} {rs rs' : List Rule} (hrefs : r.refs = [])
    (hlost : lost r.validator) (h : Omits lost rs rs') : Omits lost (r :: rs) rs'

namespace Omits

variable {lost : Validator → Prop} {rs rs' : List Rule}

theorem refl (lost : Validator → Prop) (rs : List Rule) : Omits lost rs rs := by
  induction rs generalizing lost with
  | nil => exact .nil
  | cons r rs ih => exact .keep (ih _)

/-- Saving rules loses those that cover nothing. -/
theorem filter (h : ∀ v r, rs.find? (fun r => r.validator = v) = some r → r.refs = [] → lost v) :
    Omits lost rs (rs.filter fun r => !r.refs.isEmpty) := by
  induction rs generalizing lost with
  | nil => exact .nil
  | cons r rs ih =>
    have hfirst : (r :: rs).find? (fun x => x.validator = r.validator) = some r :=
      List.find?_cons_of_pos (decide_eq_true rfl)
    have hlater {v : Validator} (hv : v ≠ r.validator) :
        (r :: rs).find? (fun x => x.validator = v) = rs.find? (fun x => x.validator = v) :=
      List.find?_cons_of_neg (by simpa using hv.symm)
    by_cases hrefs : r.refs = []
    · have hlost : lost r.validator := h _ r hfirst hrefs
      rw [List.filter_cons_of_neg (by simp [hrefs])]
      refine .drop hrefs hlost (ih fun v x hx hempty => ?_)
      by_cases hv : v = r.validator
      · rwa [hv]
      · exact h v x ((hlater hv).trans hx) hempty
    · rw [List.filter_cons_of_pos (by simpa using hrefs)]
      refine .keep (ih fun v x hx hempty => ?_)
      by_cases hv : v = r.validator
      · exact .inr hv
      · exact .inl (h v x ((hlater hv).trans hx) hempty)

/-- What is omitted is not saved. -/
theorem saved_eq (h : Omits lost rs rs') :
    (rs'.filter fun r => !r.refs.isEmpty) = rs.filter fun r => !r.refs.isEmpty := by
  induction h with
  | nil => rfl
  | keep h ih => rw [List.filter_cons, List.filter_cons, ih]
  | drop hrefs hlost h ih => rw [ih, List.filter_cons_of_neg (by simp [hrefs])]

/-- A validator that is not lost joins the same rule in both. -/
theorem addTo (h : Omits lost rs rs') (mode : String) (x : Range) {v : Validator} (hv : ¬lost v) :
    Omits lost (Rules.addTo mode x v rs) (Rules.addTo mode x v rs') := by
  induction h with
  | nil => exact refl _ _
  | @keep lost r rs rs' h ih =>
    rw [Rules.addTo, Rules.addTo]
    by_cases hjoin : r.validator = v
    · rw [if_pos hjoin, if_pos hjoin]
      exact .keep h
    · rw [if_neg hjoin, if_neg hjoin]
      refine .keep (ih ?_)
      rintro (hlost | rfl)
      · exact hv hlost
      · exact hjoin rfl
  | @drop lost r rs rs' hrefs hlost h ih =>
    have hjoin : r.validator ≠ v := by
      rintro rfl
      exact hv hlost
    rw [Rules.addTo, if_neg hjoin]
    exact .drop hrefs hlost (ih hv)

/-- Cutting a range out of all rules cuts nothing out of those that are omitted. -/
theorem map_cut (h : Omits lost rs rs') (x : Range) :
    Omits lost (rs.map fun r => r.cut x) (rs'.map fun r => r.cut x) := by
  induction h with
  | nil => exact .nil
  | keep h ih => exact .keep ih
  | @drop lost r rs rs' hrefs hlost h ih =>
    refine .drop ?_ hlost ih
    show r.refs.flatMap _ = []
    rw [hrefs]
    rfl

end Omits

/-! ## Two memories -/

namespace Sheet

/-- Does a sheet with another memory go on in the same way? The rules differ in some that
    are lost, and the scroll position differs only if nobody scrolls. -/
structure Recollects (lost : Validator → Prop) (synced : Prop) (s : Sheet) (m : Memory) : Prop where
  rules : Omits lost s.rules.rules m.rules.rules
  scroll : synced → m.scroll = s.scroll

variable {lost : Validator → Prop} {synced : Prop} {s : Sheet} {m : Memory}

theorem Recollects.snapshot_eq (h : Recollects lost synced s m) :
    (s.remember m).snapshot = s.snapshot :=
  congrArg (fun rules => { s.snapshot with rules }) h.rules.saved_eq

/-- Two sheets that differ in their memories, and the same answer. -/
def Resembles (lost : Validator → Prop) (synced : Prop) (r r' : Sheet × Outcome) : Prop :=
  ∃ m, r' = (r.1.remember m, r.2) ∧ Recollects lost synced r.1 m

theorem Resembles.of_recollects (h : Recollects lost synced s m) (o : Outcome) :
    Resembles lost synced (s, o) (s.remember m, o) :=
  ⟨m, rfl, h⟩

/-- A sheet that a change left alone but for its rules remembers the same scroll position. -/
theorem Recollects.changed {s' : Sheet} (edit : Rules → Rules)
    (hs' : s'.memory = { s.memory with rules := edit s.rules })
    (h : Recollects lost synced s m)
    (hedit : Omits lost (edit s.rules).rules (edit m.rules).rules) :
    Recollects lost synced s' { m with rules := edit m.rules } where
  rules := by
    rw [show s'.rules = edit s.rules from congrArg Memory.rules hs']
    exact hedit
  scroll hsynced := (h.scroll hsynced).trans (congrArg Memory.scroll hs').symm

/-- A commit that is blind, or edits the rules and is blind otherwise. -/
theorem commit_remember (h : Recollects lost synced s m) (change : Sheet → Sheet)
    (edit : Rules → Rules)
    (hchange : ∀ t m, change (t.remember m) = (change t).remember { m with rules := edit m.rules })
    (hedit : Omits lost (edit s.rules).rules (edit m.rules).rules) :
    Resembles lost synced (s.commit change) ((s.remember m).commit change) := by
  by_cases hwritable : s.isWritable = true
  · have hwritable' : (s.remember m).isWritable = true := hwritable
    rw [commit, if_pos hwritable, commit, if_pos hwritable']
    -- The history takes note of the change, and then the event is reported.
    let recorded : Sheet :=
      { s with history := s.history.record s.snapshot.toText, pending := none }
    let m' : Memory := { m with history := m.history.record (s.remember m).snapshot.toText }
    have hmemory : (change recorded).memory = { recorded.memory with rules := edit s.rules } :=
      congrArg memory (hchange recorded recorded.memory)
    have hm' : Recollects lost synced (change recorded) { m' with rules := edit m.rules } :=
      Recollects.changed edit hmemory ⟨h.rules, h.scroll⟩ hedit
    refine ⟨{ m' with
      rules := edit m.rules
      revision := m.revision + 1
      events := .changed (m.revision + 1) :: m.events }, ?_, hm'.rules, hm'.scroll⟩
    exact congrArg (fun t : Sheet => (t.refreshView.emit .changed, Outcome.applied))
      (hchange recorded m')
  · have hwritable' : ¬(s.remember m).isWritable = true := hwritable
    rw [commit, if_neg hwritable, commit, if_neg hwritable']
    exact .of_recollects h _

/-- An operation that does not look at the memory. -/
theorem runs_remember (h : Recollects lost synced s m) {g : Sheet → Sheet × Outcome}
    (hg : Runs s g) : Resembles lost synced (g s) (g (s.remember m)) := by
  cases hg with
  | commits f hf hrun =>
    have hs : g s = s.commit f := hrun s.memory
    rw [hrun, hs]
    exact commit_remember h f id (fun t m => hf t m) h.rules
  | shows f o hf hfresh hrun =>
    have hs : g s = (f s, o) := hrun s.memory
    rw [hrun, hs, hf]
    exact .of_recollects (Recollects.changed id (hf.memory_eq s) h h.rules) o

/-- Typing puts aside, or records, what would be saved, and checks the text against the
    rules. The marks that are left are not seen. -/
theorem typeText_remember (h : Recollects lost synced s m) (c : CellRef) (text : String)
    (state : EditState) :
    Resembles lost synced (s.typeText c text state) ((s.remember m).typeText c text state) := by
  unfold typeText
  by_cases hwritable : s.isWritable = true
  · have hwritable' : (s.remember m).isWritable = true := hwritable
    rw [if_pos hwritable, if_pos hwritable']
    cases state with
    | input =>
      simp only [h.snapshot_eq]
      exact ⟨{ m with
        rules := m.rules.validate c text
        revision := m.revision + 1
        events := .changed (m.revision + 1) :: m.events }, rfl, h.rules, h.scroll⟩
    | finished =>
      exact ⟨{ m with
        history := m.history.record ((s.remember m).pending.getD (s.remember m).snapshot).toText
        rules := m.rules.validate c text
        revision := m.revision + 1
        events := .changed (m.revision + 1) :: m.events }, rfl, h.rules, h.scroll⟩
  · have hwritable' : ¬(s.remember m).isWritable = true := hwritable
    rw [if_neg hwritable, if_neg hwritable']
    exact .of_recollects h _

theorem typeActive_remember (h : Recollects lost synced s m) (text : String) (state : EditState) :
    Resembles lost synced (s.typeActive text state) ((s.remember m).typeActive text state) := by
  obtain ⟨m', heq, hm'⟩ := typeText_remember h s.activeRef text state
  have hactive : (s.remember m).activeRef = s.activeRef := rfl
  simp only [typeActive, hactive, heq]
  -- The filter and the view follow the text, and neither is remembered.
  generalize s.typeText s.activeRef text state = result at hm' ⊢
  obtain ⟨typed, o⟩ := result
  cases o with
  | applied =>
    by_cases hfinished : state = .finished
    · simp only [if_pos hfinished]
      exact ⟨m', rfl, hm'.rules, hm'.scroll⟩
    · simp only [if_neg hfinished]
      exact ⟨m', rfl, hm'.rules, hm'.scroll⟩
  | ignored | rejected => exact ⟨m', rfl, hm'⟩

theorem scrollX_remember (h : Recollects lost synced s m) (hsynced : synced) (x : Float) :
    Resembles lost synced (s.scrollX x) ((s.remember m).scrollX x) := by
  have hscroll := h.scroll hsynced
  have hmoved (target : Float) (col : Nat) : Resembles lost synced
      (if s.scroll.x == target then (s, .ignored)
        else ({ s with scroll := { s.scroll with x := target, col } }, .applied))
      (if m.scroll.x == target then (s.remember m, .ignored)
        else ({ s.remember m with scroll := { m.scroll with x := target, col } }, .applied)) := by
    rw [hscroll]
    split
    · exact .of_recollects h _
    · exact ⟨{ m with scroll := { s.scroll with x := target, col } }, rfl, h.rules, fun _ => rfl⟩
  exact hmoved _ _

theorem scrollY_remember (h : Recollects lost synced s m) (hsynced : synced) (y : Float) :
    Resembles lost synced (s.scrollY y) ((s.remember m).scrollY y) := by
  have hscroll := h.scroll hsynced
  have hmoved (target : Float) (row : Nat) : Resembles lost synced
      (if s.scroll.y == target then (s, .ignored)
        else ({ s with scroll := { s.scroll with y := target, row } }, .applied))
      (if m.scroll.y == target then (s.remember m, .ignored)
        else ({ s.remember m with scroll := { m.scroll with y := target, row } }, .applied)) := by
    rw [hscroll]
    split
    · exact .of_recollects h _
    · exact ⟨{ m with scroll := { s.scroll with y := target, row } }, rfl, h.rules, fun _ => rfl⟩
  exact hmoved _ _

theorem removeRules_remember (h : Recollects lost synced s m) :
    Resembles lost synced s.removeRules (s.remember m).removeRules := by
  simp only [removeRules, commitOnSelection, selection_remember]
  cases s.selection.range with
  | none => exact .of_recollects h _
  | some r =>
    exact commit_remember h (fun t => { t with rules := t.rules.remove r })
      (fun rules => rules.remove r) (fun _ _ => rfl) (h.rules.map_cut r)

/-- Carrying out a command, unless it goes to a state of the history, scrolls where the
    position is another one, or adds a validator that is lost. -/
theorem run_remember (h : Recollects lost synced s m) {c : Command}
    (htravels : (Action.run c).travels = false) (hscrolls : (Action.run c).scrolls = true → synced)
    (hlost : ∀ v ∈ (Action.run c).validator?, ¬lost v) :
    Resembles lost synced (s.run c) ((s.remember m).run c) := by
  by_cases hblind : c.isBlind = true
  · exact runs_remember h (runs s hblind)
  · cases c with
    | undo | redo => cases htravels
    | typeText c text state => exact typeText_remember h c text state
    | typeActive text state => exact typeActive_remember h text state
    | addRule mode r v =>
      exact commit_remember h (fun t => { t with rules := t.rules.add mode r v })
        (fun rules => rules.add mode r v) (fun _ _ => rfl)
        (h.rules.addTo mode r (hlost v rfl))
    | removeRules => exact removeRules_remember h
    | scrollX x => exact scrollX_remember h (hscrolls rfl) x
    | scrollY y => exact scrollY_remember h (hscrolls rfl) y
    | _ => exact absurd rfl hblind

/-- What two sheets that differ in their memories are seen to do is the same. -/
theorem observe_remember (h : Recollects lost synced s m) {actions : List Action}
    (htravels : ∀ a ∈ actions, a.travels = false)
    (hscrolls : ∀ a ∈ actions, a.scrolls = true → synced) (hrules : Avoids lost actions) :
    (s.remember m).observe actions = s.observe actions := by
  induction actions generalizing s m lost with
  | nil => rfl
  | cons a as ih =>
    have htravels' : ∀ a ∈ as, a.travels = false := fun x hx =>
      htravels x (List.mem_cons_of_mem _ hx)
    have hscrolls' : ∀ a ∈ as, a.scrolls = true → synced := fun x hx =>
      hscrolls x (List.mem_cons_of_mem _ hx)
    -- One step leads to two such sheets again, and what is seen of these is the same.
    have hstep {lost' : Validator → Prop}
        (halike : Resembles lost' synced (s.act a) ((s.remember m).act a)) (has : Avoids lost' as) :
        (s.remember m).observe (a :: as) = s.observe (a :: as) := by
      obtain ⟨m', heq, hm'⟩ := halike
      rw [observe, observe, heq]
      simp only [hm'.snapshot_eq, ih hm' htravels' hscrolls' has]
      rfl
    -- After the saved part was replaced, there are no rules that only one of them has.
    have hrestored (d : Snapshot) (lost' : Validator → Prop) :
        Recollects lost' synced (s.restore d) { m with rules := .ofSaved d.rules } :=
      ⟨.refl _ _, h.scroll⟩
    cases a with
    | run c =>
      exact hstep (run_remember h (htravels _ List.mem_cons_self)
        (hscrolls _ List.mem_cons_self) hrules.1) hrules.2
    | rename name => exact hstep ⟨m, rfl, h.rules, h.scroll⟩ hrules.2
    | replace d => exact hstep ⟨_, rfl, hrestored d _⟩ (avoids_nothing as)
    | load text =>
      cases hread : Snapshot.ofText? text with
      | some d =>
        have hload (t : Sheet) : t.act (.load text) = (t.restore d, .applied) := by
          simp only [act, load, hread]
        refine hstep ?_ (avoids_nothing as)
        rw [hload, hload]
        exact ⟨_, rfl, hrestored d _⟩
      | none =>
        have hload (t : Sheet) : t.act (.load text) =
            (t, .rejected (.snapshot "malformed document")) := by
          simp only [act, load, hread]
        refine hstep ?_ (hrules hread)
        rw [hload, hload]
        exact .of_recollects h _

end Sheet

end Worksheet
