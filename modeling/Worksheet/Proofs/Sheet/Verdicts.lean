import Worksheet.Proofs.Rows.Marks
import Worksheet.Proofs.Sheet.Reloading

/-!
# Verdicts

What the mark at a cell tells.

A text that is typed into a cell is judged by the rules that there are at that time,
and a mark is left if it is refused. Nothing else looks at the rules. A mark therefore
tells about the past: the rule may have been removed since, and the text may have been
overwritten or moved away. A locked cell does not even take the text that it is marked
for.

Whatever is done to a sheet, it may replace the sheet, have a text judged, or set the
rules, and `Judges` says what becomes of the marks then. A mark is traced back by going
through a session one action at a time. What is left over at the beginning of it is
nothing, since a new sheet has no marks.

## Main definitions

* `Sheet.typedAt?`, `Sheet.isReplacedBy`, `Action.setsRules`: What an action does.
* `Sheet.Judges`: What becomes of rules and marks.
* `Sheet.Untouched`: Nothing is typed into a cell for some time.

## Theorems

* `Rules.markAt?_validate`: Judging a text marks its cell and no other.
* `Sheet.judges_act`: Every action judges.
* `Sheet.markAt?_act`: The mark at a cell after an action.
* `Sheet.typed_of_markAt?`: Where a mark comes from.
* `Sheet.markAt?_after`: A mark is the verdict on what was typed last.
-/

namespace Worksheet

namespace Rules

/-- A text is refused by the first rule that covers its cell. -/
theorem check_eq_some_iff {s : Rules} {c : CellRef} {text : String} {e : Rejection} :
    s.check c text = some e ↔ ∃ r, s.ruleAt? c = some r ∧ r.validator.check text = some e := by
  unfold check
  cases s.ruleAt? c with
  | some r => simp
  | none => simp

/-- Judging a text marks its cell, or takes the mark off, and no other. -/
theorem markAt?_validate (s : Rules) (c c' : CellRef) (text : String) :
    (s.validate c text).markAt? c' = if c' = c then s.check c text else s.markAt? c' := by
  have hothers : (s.marks.filter fun m => m.1 != c).find? (fun m => m.1 == c') =
      if c' = c then none else s.marks.find? fun m => m.1 == c' := by
    rw [List.find?_filter]
    split
    · rename_i heq
      simp [heq]
    · rename_i hne
      refine congrArg (List.find? · s.marks) (funext fun m => ?_)
      by_cases hm : m.1 = c'
      · simp [hm, hne]
      · simp [hm]
  unfold markAt? validate
  cases s.check c text with
  | none =>
    simp only [hothers]
    split <;> rfl
  | some e =>
    by_cases heq : c' = c
    · simp [heq]
    · have hne : (c == c') = false := beq_eq_false_iff_ne.2 (Ne.symm heq)
      simp only [List.find?_cons, hne, hothers, if_neg heq]

end Rules

/-- A cell that is not locked takes the text that is typed into it. -/
theorem Rows.content_setText {s : Rows} {c : CellRef}
    (h : ∀ cell ∈ s.cell? c, cell.editable = true) (text : String) :
    (s.setText c text).content c = text := by
  have hopen : ((s.cell? c).getD {}).editable = true := by
    cases hcell : s.cell? c with
    | none => rfl
    | some cell => exact h cell hcell
  simp only [content, setText, cell?_editCell, if_true, if_pos hopen, Cell.content,
    Option.getD_some]

/-- Does the action add rules or remove some? -/
def Action.setsRules : Action → Bool
  | .run (.addRule _ _ _) | .run .removeRules => true
  | _ => false

namespace Sheet

/-- The text that an action types into a cell. A sheet that is open for reading only
    takes none. -/
def typedAt? (s : Sheet) (c : CellRef) : Action → Option String
  | .run (.typeText c' text _) => if s.isWritable ∧ c' = c then some text else none
  | .run (.typeActive text _) => if s.isWritable ∧ s.activeRef = c then some text else none
  | _ => none

/-- Is the sheet replaced by an action, be it by a state of the history or by one that
    comes from outside? -/
def isReplacedBy (s : Sheet) (a : Action) : Bool :=
  match a with
  | .run .undo | .run .redo | .replace _ | .load _ => (s.act a).2.isApplied
  | _ => false

/-- Is nothing typed into a cell while actions are carried out, and the sheet not
    replaced? -/
def Untouched (c : CellRef) : Sheet → List Action → Prop
  | _, [] => True
  | s, a :: as => s.typedAt? c a = none ∧ s.isReplacedBy a = false ∧ Untouched c (s.act a).1 as

/-! ## One action -/

/-- What an action does to the rules of a sheet and to the marks that they left. -/
inductive Judges (s : Sheet) (a : Action) : Rules → Prop where
  /-- The sheet is replaced, and its marks are gone. -/
  | replaces (rules : List Rule) (h : s.isReplacedBy a = true) : Judges s a (.ofSaved rules)
  /-- A text is typed into a cell and judged. -/
  | judges (c : CellRef) (text : String) (h : s.isReplacedBy a = false)
    (htyped : ∀ c', s.typedAt? c' a = if c = c' then some text else none) :
    Judges s a (s.rules.validate c text)
  /-- Rules are set, and the marks stay. -/
  | sets {rules : Rules} (h : s.isReplacedBy a = false) (hsets : a.setsRules = true)
    (htyped : ∀ c, s.typedAt? c a = none) (hmarks : rules.marks = s.rules.marks) :
    Judges s a rules
  /-- Nothing. -/
  | idles (h : s.isReplacedBy a = false) (htyped : ∀ c, s.typedAt? c a = none) :
    Judges s a s.rules

section

variable {s : Sheet}

theorem rules_commit {change : Sheet → Sheet} (h : Blind change) :
    (s.commit change).1.rules = s.rules := by
  unfold commit
  split
  · exact congrArg Memory.rules (h.memory_eq
      { s with history := s.history.record s.snapshot.toText, pending := none })
  · rfl

/-- A command that does not look at what the sheet remembers leaves the rules alone. -/
theorem rules_run {c : Command} (hblind : c.isBlind = true) : (s.run c).1.rules = s.rules := by
  cases runs s hblind with
  | commits f hf hrun =>
    have heq := hrun s.memory
    rw [remember_memory] at heq
    rw [heq, rules_commit hf]
  | shows f o hf hfresh hrun =>
    have heq := hrun s.memory
    rw [remember_memory] at heq
    rw [heq]
    exact congrArg Memory.rules (hf.memory_eq s)

theorem rules_scroll (scroll : Scroll) (here : Bool) :
    (if here then (s, Outcome.ignored) else ({ s with scroll }, .applied)).1.rules = s.rules := by
  split <;> rfl

theorem judges_goTo {a : Action} (hidle : ∀ c, s.typedAt? c a = none) (r : Restored Snapshot)
    (h : s.isReplacedBy a = (s.goTo r).2.isApplied) : Judges s a (s.goTo r).1.rules := by
  cases r with
  | nothing | unreadable => exact .idles h hidle
  | state d history => exact .replaces d.rules h

theorem judges_travel {a : Action} (hidle : ∀ c, s.typedAt? c a = none) (r : Restored Snapshot)
    {result : Sheet × Outcome}
    (hresult : result = if s.isWritable then s.goTo r else (s, .ignored))
    (h : s.isReplacedBy a = result.2.isApplied) : Judges s a result.1.rules := by
  subst hresult
  by_cases hwritable : s.isWritable = true
  · rw [if_pos hwritable] at h ⊢
    exact judges_goTo hidle r h
  · rw [if_neg hwritable] at h ⊢
    exact .idles h hidle

theorem judges_typeText (c : CellRef) (text : String) (state : EditState) :
    Judges s (.run (.typeText c text state)) (s.typeText c text state).1.rules := by
  unfold typeText
  by_cases hwritable : s.isWritable = true
  · rw [if_pos hwritable]
    have hjudged : Judges s (.run (.typeText c text state)) (s.rules.validate c text) :=
      .judges c text rfl fun c' => by simp only [typedAt?, hwritable, true_and]
    cases state with
    | input => exact hjudged
    | finished => exact hjudged
  · rw [if_neg hwritable]
    exact .idles rfl fun c' => if_neg fun h => hwritable h.1

theorem judges_typeActive (text : String) (state : EditState) :
    Judges s (.run (.typeActive text state)) (s.typeActive text state).1.rules := by
  simp only [typeActive, typeText]
  by_cases hwritable : s.isWritable = true
  · have hjudged : Judges s (.run (.typeActive text state)) (s.rules.validate s.activeRef text) :=
      .judges s.activeRef text rfl fun c' => by simp only [typedAt?, hwritable, true_and]
    simp only [if_pos hwritable]
    -- The filter and the view follow the text, and neither is about rules.
    cases state with
    | input => exact hjudged
    | finished => exact hjudged
  · simp only [if_neg hwritable]
    exact .idles rfl fun c' => if_neg fun h => hwritable h.1

theorem judges_addRule (mode : String) (r : Range) (v : Validator) :
    Judges s (.run (.addRule mode r v)) (s.addRule mode r v).1.rules := by
  refine .sets rfl rfl (fun _ => rfl) ?_
  simp only [addRule, commit]
  split <;> rfl

theorem judges_removeRules : Judges s (.run .removeRules) s.removeRules.1.rules := by
  refine .sets rfl rfl (fun _ => rfl) ?_
  simp only [removeRules, commitOnSelection, commit]
  split
  · split <;> rfl
  · rfl

theorem judges_load (text : String) :
    Judges s (.load text) (s.act (.load text)).1.rules := by
  cases hread : Snapshot.ofText? text with
  | some d =>
    have hload : s.act (.load text) = (s.restore d, .applied) := by simp only [act, load, hread]
    rw [hload]
    exact .replaces d.rules (by rw [isReplacedBy, hload]; rfl)
  | none =>
    have hload : s.act (.load text) = (s, .rejected (.snapshot "malformed document")) := by
      simp only [act, load, hread]
    rw [hload]
    exact .idles (by rw [isReplacedBy, hload]; rfl) fun _ => rfl

end

/-- Every action replaces the sheet, has a text judged, sets rules or does nothing to
    them. -/
theorem judges_act (s : Sheet) (a : Action) : Judges s a (s.act a).1.rules := by
  cases a with
  | rename name => exact .idles rfl fun _ => rfl
  | replace d => exact .replaces d.rules rfl
  | load text => exact judges_load text
  | run c =>
    by_cases hblind : c.isBlind = true
    · have hrules : (s.act (.run c)).1.rules = s.rules := rules_run hblind
      rw [hrules]
      cases c with
      | undo | redo | typeText | typeActive | addRule | removeRules | scrollX | scrollY =>
        cases hblind
      | _ => exact .idles rfl fun _ => rfl
    · cases c with
      | undo => exact judges_travel (fun _ => rfl) _ rfl rfl
      | redo => exact judges_travel (fun _ => rfl) _ rfl rfl
      | typeText c text state => exact judges_typeText c text state
      | typeActive text state => exact judges_typeActive text state
      | addRule mode r v => exact judges_addRule mode r v
      | removeRules => exact judges_removeRules
      | scrollX x =>
        have hrules : (s.act (.run (.scrollX x))).1.rules = s.rules := rules_scroll _ _
        rw [hrules]
        exact .idles rfl fun _ => rfl
      | scrollY y =>
        have hrules : (s.act (.run (.scrollY y))).1.rules = s.rules := rules_scroll _ _
        rw [hrules]
        exact .idles rfl fun _ => rfl
      | _ => exact absurd rfl hblind

/-- The mark at a cell after an action. -/
theorem markAt?_act (s : Sheet) (a : Action) (c : CellRef) :
    (s.act a).1.markAt? c =
      if s.isReplacedBy a = true then none
      else match s.typedAt? c a with
        | some text => s.rules.check c text
        | none => s.markAt? c := by
  have hjudges := judges_act s a
  rw [markAt?]
  generalize (s.act a).1.rules = rules at hjudges
  cases hjudges with
  | replaces rules h =>
    rw [if_pos h]
    rfl
  | judges c' text h htyped =>
    rw [if_neg (Bool.eq_false_iff.1 h), Rules.markAt?_validate, htyped]
    by_cases heq : c = c'
    · subst heq
      simp
    · rw [if_neg heq, if_neg (Ne.symm heq)]
      rfl
  | sets h hsets htyped hmarks =>
    rw [if_neg (Bool.eq_false_iff.1 h), htyped, Rules.markAt?, hmarks]
    rfl
  | idles h htyped =>
    rw [if_neg (Bool.eq_false_iff.1 h), htyped]
    rfl

/-- The rules after an action that sets none. -/
theorem rules_act {s : Sheet} {a : Action} (hsets : a.setsRules = false)
    (hkept : s.isReplacedBy a = false) : (s.act a).1.rules.rules = s.rules.rules := by
  have hjudges := judges_act s a
  generalize (s.act a).1.rules = rules at hjudges
  cases hjudges with
  | replaces rules h => rw [hkept] at h; cases h
  | judges | idles => rfl
  | sets h hsets' => rw [hsets] at hsets'; cases hsets'

/-- Typing neither replaces the sheet nor sets rules. -/
theorem kept_of_typedAt? {s : Sheet} {a : Action} {c : CellRef} {text : String}
    (h : s.typedAt? c a = some text) : s.isReplacedBy a = false ∧ a.setsRules = false := by
  cases a with
  | run command => cases command with
    | typeText | typeActive => exact ⟨rfl, rfl⟩
    | _ => cases h
  | _ => cases h

/-- The cells after a text was typed. -/
theorem rows_act {s : Sheet} {a : Action} {c : CellRef} {text : String}
    (h : s.typedAt? c a = some text) : (s.act a).1.rows = s.rows.setText c text := by
  cases a with
  | run command =>
    cases command with
    | typeText c' text' state =>
      simp only [typedAt?, Option.ite_none_right_eq_some, Option.some.injEq] at h
      obtain ⟨⟨hwritable, rfl⟩, rfl⟩ := h
      simp only [act, run, typeText, if_pos hwritable]
      cases state <;> rfl
    | typeActive text' state =>
      simp only [typedAt?, Option.ite_none_right_eq_some, Option.some.injEq] at h
      obtain ⟨⟨hwritable, rfl⟩, rfl⟩ := h
      simp only [act, run, typeActive, typeText, if_pos hwritable]
      cases state <;> rfl
    | _ => cases h
  | _ => cases h

/-! ## Sessions -/

namespace Untouched

variable {s : Sheet} {c : CellRef} {actions : List Action}

/-- A mark stays where it is. -/
theorem markAt?_eq (h : Untouched c s actions) : (s.actAll actions).markAt? c = s.markAt? c := by
  induction actions generalizing s with
  | nil => rfl
  | cons a as ih =>
    obtain ⟨htyped, hkept, hrest⟩ := h
    have hstep := markAt?_act s a c
    rw [if_neg (Bool.eq_false_iff.1 hkept), htyped] at hstep
    exact (ih hrest).trans hstep

/-- And the rules are the same if none are set. -/
theorem rules_eq (h : Untouched c s actions) (hsets : ∀ a ∈ actions, a.setsRules = false) :
    (s.actAll actions).rules.rules = s.rules.rules := by
  induction actions generalizing s with
  | nil => rfl
  | cons a as ih =>
    obtain ⟨-, hkept, hrest⟩ := h
    have hfirst := rules_act (hsets a List.mem_cons_self) hkept
    exact (ih hrest fun b hb => hsets b (List.mem_cons_of_mem a hb)).trans hfirst

end Untouched

theorem actAll_append (s : Sheet) (as bs : List Action) :
    s.actAll (as ++ bs) = (s.actAll as).actAll bs :=
  List.foldl_append

/-- A text that was refused has left its mark, unless something was typed over it or the
    sheet was replaced. -/
theorem markAt?_of_typedAt? {s : Sheet} {c : CellRef} {before after : List Action} {a : Action}
    {text : String} (htyped : (s.actAll before).typedAt? c a = some text)
    (hafter : Untouched c ((s.actAll before).act a).1 after) :
    (s.actAll (before ++ a :: after)).markAt? c = (s.actAll before).rules.check c text := by
  have hstep := markAt?_act (s.actAll before) a c
  rw [if_neg (Bool.eq_false_iff.1 (kept_of_typedAt? htyped).1), htyped] at hstep
  rw [actAll_append]
  exact hafter.markAt?_eq.trans hstep

/-- A mark was there from the beginning, or a text has left it and nothing was typed over
    it. -/
theorem typed_of_markAt? {s : Sheet} {actions : List Action} {c : CellRef} {e : Rejection}
    (h : (s.actAll actions).markAt? c = some e) :
    s.markAt? c = some e ∧ Untouched c s actions ∨
      ∃ before a after text, actions = before ++ a :: after ∧
        (s.actAll before).typedAt? c a = some text ∧
        Untouched c ((s.actAll before).act a).1 after := by
  induction actions generalizing s with
  | nil => exact .inl ⟨h, trivial⟩
  | cons b bs ih =>
    rcases ih (s := (s.act b).1) h with
      ⟨hmark, hrest⟩ | ⟨before, a, after, text, rfl, htyped, hrest⟩
    · -- The mark was there after the first action, so that is looked at next.
      rw [markAt?_act] at hmark
      split at hmark
      · cases hmark
      · rename_i hkept
        cases htyped : s.typedAt? c b with
        | some text => exact .inr ⟨[], b, bs, text, rfl, htyped, hrest⟩
        | none =>
          rw [htyped] at hmark
          exact .inl ⟨hmark, htyped, Bool.eq_false_iff.2 hkept, hrest⟩
    · exact .inr ⟨b :: before, a, after, text, rfl, htyped, hrest⟩

/-- A mark is the verdict on the text that was typed into its cell last, since the sheet
    was last replaced: the first rule that covered the cell then refused the text. As long
    as no rules are set, the cell was not locked, and its text is still the one it got, the
    same rule covers it now and refuses what is in it. -/
theorem markAt?_after (name : String) (settings : Settings) (actions : List Action) (c : CellRef)
    (e : Rejection) :
    let start := Sheet.new name settings
    let s := start.actAll actions
    s.markAt? c = some e ↔
      ∃ before a after text rule,
        actions = before ++ a :: after ∧
        (start.actAll before).typedAt? c a = some text ∧
        Untouched c ((start.actAll before).act a).1 after ∧
        (start.actAll before).rules.ruleAt? c = some rule ∧
        rule.validator.check text = some e ∧
        ((∀ b ∈ after, b.setsRules = false) →
          (∀ cell ∈ (start.actAll before).cell? c, cell.editable = true) →
          s.rows.content c = ((start.actAll before).act a).1.rows.content c →
          s.rules.ruleAt? c = some rule ∧ rule.validator.check (s.rows.content c) = some e) := by
  intro start s
  constructor
  · intro hmark
    rcases typed_of_markAt? hmark with ⟨hnew, -⟩ | ⟨before, a, after, text, rfl, htyped, hafter⟩
    · cases hnew
    · have hcheck : (start.actAll before).rules.check c text = some e :=
        (markAt?_of_typedAt? htyped hafter).symm.trans hmark
      obtain ⟨rule, hrule, hrefused⟩ := Rules.check_eq_some_iff.1 hcheck
      refine ⟨before, a, after, text, rule, rfl, htyped, hafter, hrule, hrefused, ?_⟩
      intro hsets hopen hcontent
      -- Typing sets no rules, and what comes after it does not either.
      obtain ⟨hkept, hset⟩ := kept_of_typedAt? htyped
      have hrules : s.rules.rules = (start.actAll before).rules.rules := by
        show (start.actAll (before ++ a :: after)).rules.rules = _
        rw [actAll_append]
        exact (hafter.rules_eq hsets).trans (rules_act hset hkept)
      refine ⟨?_, ?_⟩
      · rw [Rules.ruleAt?, hrules]
        exact hrule
      · rw [hcontent, rows_act htyped, Rows.content_setText hopen]
        exact hrefused
  · rintro ⟨before, a, after, text, rule, rfl, htyped, hafter, hrule, hrefused, -⟩
    exact (markAt?_of_typedAt? htyped hafter).trans
      (Rules.check_eq_some_iff.2 ⟨rule, hrule, hrefused⟩)

/-- The rule is removed after the text was refused, and the mark stays. -/
theorem markAt?_without_rule :
    ¬∀ (name : String) (settings : Settings) (actions : List Action) (c : CellRef) (e : Rejection),
      ((Sheet.new name settings).actAll actions).markAt? c = some e →
        ∃ rule, ((Sheet.new name settings).actAll actions).rules.ruleAt? c = some rule ∧
          rule.validator.check (((Sheet.new name settings).actAll actions).rows.content c) =
            some e := by
  intro h
  let actions : List Action :=
    [.run (.addRule "cell" (.single ⟨0, 0⟩) ⟨.list, false, "a,b", none⟩),
      .run (.typeText ⟨0, 0⟩ "c" .finished), .run (.select (.single ⟨0, 0⟩)), .run .removeRules]
  obtain ⟨rule, hrule, -⟩ := h "" {} actions ⟨0, 0⟩ .notIn (by rfl)
  have hnone : ((Sheet.new "" {}).actAll actions).rules.ruleAt? ⟨0, 0⟩ = none := by rfl
  rw [hnone] at hrule
  cases hrule

end Sheet

end Worksheet
