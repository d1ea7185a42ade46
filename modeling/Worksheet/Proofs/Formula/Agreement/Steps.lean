import Worksheet.Proofs.Formula.Agreement.States

/-!
# Steps with the Same Landmarks

Characters outside words keep states agreeing.

Such characters are the same in both texts. Which step one of them calls for depends
on four facts about the state, and agreeing states have them in common. So both
conversions take the same step, and it is enough to look at one step after another.
Only at the end of a run may they part, when one of them replaces a range and the
other does not.

## Theorems

* `flush_agree`: The end of a run.
* `openParen_agree`: The name of a call.
* `end_agree`: A character that ends a run.
* `feed_agree`: Any character outside words.
-/

namespace Worksheet

namespace Formula

namespace Converter

variable {cells named : Bool} {move : CellRef → CellRef} {s s' : Converter}

/-! ## The end of a run -/

/-- A range may be replaced on either side, as long as cells are not looked at. -/
theorem expandRange_agree_left (start : Nat) (h : StateAgree false move named s s') :
    StateAgree false move named (s.expandRange start) s' := by
  have houtput : OutputAgree false move (s.expandRange start).output s'.output := by
    rw [OutputAgree, landmarks_expandRange]
    exact h.output
  by_cases hcorners : ∃ x y out, Corners start s.output x y out
  · obtain ⟨x, y, out, hcorners⟩ := hcorners
    rw [expandRange_corners hcorners] at houtput ⊢
    exact { h with
      output := houtput
      stack := editCall_agree_left _ h.stack
      rangeStart := nofun }
  · rw [expandRange_of_not_corners hcorners]
    exact h

theorem expandRange_agree_right (start : Nat) (h : StateAgree false move named s s') :
    StateAgree false move named s (s'.expandRange start) := by
  have houtput : OutputAgree false move s.output (s'.expandRange start).output := by
    rw [OutputAgree, landmarks_expandRange]
    exact h.output
  by_cases hcorners : ∃ x y out, Corners start s'.output x y out
  · obtain ⟨x, y, out, hcorners⟩ := hcorners
    rw [expandRange_corners hcorners] at houtput ⊢
    exact { h with
      output := houtput
      stack := editCall_agree_right _ h.stack
      rangeStart := nofun }
  · rw [expandRange_of_not_corners hcorners]
    exact h

/-- The end of a run keeps states agreeing, outside the names of calls. -/
theorem flush_agree {named' : Bool} (h : StateAgree cells move false s s') :
    StateAgree cells move named' s.flush s'.flush := by
  by_cases hrun : s.run = []
  · rw [flush_of_run_nil hrun, flush_of_run_nil (h.run.eq_nil_iff.1 hrun)]
    exact h.of_run_nil hrun
  · have hrun' : s'.run ≠ [] := fun hnil => hrun (h.run.eq_nil_iff.2 hnil)
    have hstep (rangeStart rangeStart' : Option Nat)
        (hstart : cells = true → rangeStart = none ∧ rangeStart' = none) :
        StateAgree cells move named'
          { s with run := [], rangeStart,
                   output := .operand (String.ofList s.run.reverse) :: s.output }
          { s' with run := [], rangeStart := rangeStart',
                    output := .operand (String.ofList s'.run.reverse) :: s'.output } :=
      ⟨h.run.output h.output, h.stack, .nil, h.previous, hstart, h.quote⟩
    cases cells with
    | true =>
      obtain ⟨hnone, hnone'⟩ := h.rangeStart rfl
      rw [flush_of_rangeStart_none hrun hnone, flush_of_rangeStart_none hrun' hnone']
      exact hstep _ _ fun _ => ⟨hnone, hnone'⟩
    | false =>
      -- Each side may end a range on its own.
      have hleft : StateAgree false move named' s.flush
          { s' with run := [], rangeStart := none,
                    output := .operand (String.ofList s'.run.reverse) :: s'.output } := by
        cases hstart : s.rangeStart with
        | none =>
          rw [flush_of_rangeStart_none hrun hstart]
          exact hstep _ _ nofun
        | some start =>
          rw [flush_of_rangeStart_some hrun hstart]
          exact expandRange_agree_left start (hstep _ _ nofun)
      cases hstart : s'.rangeStart with
      | none =>
        rw [flush_of_rangeStart_none hrun' hstart]
        exact { hleft with rangeStart := nofun }
      | some start =>
        rw [flush_of_rangeStart_some hrun' hstart]
        exact expandRange_agree_right start hleft

/-! ## Characters outside words -/

theorem pushOp_agree (op : Operator) (h : StateAgree cells move named s s') :
    StateAgree cells move named (s.pushOp op) (s'.pushOp op) := by
  obtain ⟨hstack, houtput⟩ := popTighter_agree op h.stack h.output
  exact { h with output := houtput, stack := .cons (.op op) hstack }

theorem closeParen_agree (h : StateAgree cells move named s.flush s'.flush) :
    StateAgree cells move named s.closeParen s'.closeParen := by
  obtain ⟨hstack, houtput⟩ := closeFrame_agree h.stack h.output
  exact { h with output := houtput, stack := hstack, rangeStart := fun _ => ⟨rfl, rfl⟩ }

theorem comma_agree (h : StateAgree cells move named s.flush s'.flush) :
    StateAgree cells move named s.comma s'.comma := by
  obtain ⟨hstack, houtput⟩ := popOps_agree h.stack h.output
  exact { h with
    output := houtput
    stack := countArgument_agree hstack
    rangeStart := fun _ => ⟨rfl, rfl⟩ }

/-- A colon is not read if cells are looked at, and otherwise it does not matter where a
    range starts. -/
theorem colon_agree (h : StateAgree false move named s.flush s'.flush) :
    StateAgree false move named s.colon s'.colon := by
  have hcolon (t : Converter) : ∃ rangeStart, t.colon = { t.flush with rangeStart } := by
    unfold colon
    simp only
    split
    · exact ⟨_, rfl⟩
    · exact ⟨_, rfl⟩
  obtain ⟨rangeStart, heq⟩ := hcolon s
  obtain ⟨rangeStart', heq'⟩ := hcolon s'
  rw [heq, heq']
  exact { h with rangeStart := nofun }

/-- A comparison keeps states agreeing. -/
theorem compareWith_agree (op : Operator) (h : StateAgree cells move named s.flush s'.flush) :
    StateAgree cells move named (s.compareWith op) (s'.compareWith op) := by
  have hpush := pushOp_agree op h
  exact { hpush with stack := editCall_agree_left _ (editCall_agree_right _ hpush.stack) }

/-- In front of an opening parenthesis the runs are the same, so the calls have one
    name. -/
theorem openParen_agree {named' : Bool} (h : StateAgree cells move true s s') :
    StateAgree cells move named' s.openParen s'.openParen := by
  have hr := h.run
  generalize hrun : s.run = run at hr
  generalize hrun' : s'.run = run' at hr
  cases hr with
  | mk negative hb hbody hbody' =>
    obtain rfl := hb.text.resolve_right (by simp)
    have hempty : StateAgree cells move named' { s with run := [] } { s' with run := [] } :=
      { h with run := .nil }
    have hsign : StateAgree cells move named'
        (({ s with run := [] } : Converter).factorSign negative)
        (({ s' with run := [] } : Converter).factorSign negative) := by
      cases negative with
      | false => exact hempty
      | true =>
        have hput : OutputAgree cells move (.operand "-1" :: s.output)
            (.operand "-1" :: s'.output) := by
          have hone : BodyAgree cells move false ['1'] ['1'] :=
            ⟨.inl rfl, fun _ _ => by rw [show CellRef.ofChars? ['1'] = none by decide]; rfl⟩
          exact (RunAgree.mk true hone (List.all_eq_true.1 (by decide))
            (List.all_eq_true.1 (by decide))).output h.output
        exact pushOp_agree .mul { hempty with output := hput }
    rw [openParen_eq hrun hbody, openParen_eq hrun' hbody]
    unfold openFrame frame
    refine { hsign with stack := .cons ?_ hsign.stack }
    split
    · exact .paren
    · exact .call _

/-- A character that ends a run keeps states agreeing, whatever comes next. -/
theorem end_agree {c : Char} {named' : Bool} (h : StateAgree cells move false s s')
    (hgathered : isGathered c = false) (hspace : c ≠ ' ') (hparen : c ≠ '(')
    (hop : c ≠ '<' ∧ c ≠ '>' ∧ c ≠ '=') (hcolon : cells = true → c ≠ ':') :
    StateAgree cells move named' (s.feed c) (s'.feed c) := by
  -- The four facts that choose the step are the same on both sides, so both take one step.
  have hminus : decide (s'.run = ['-']) = decide (s.run = ['-']) :=
    decide_eq_decide.2 h.run.eq_minus_iff.symm
  have hempty : decide (s'.run = []) = decide (s.run = []) :=
    decide_eq_decide.2 h.run.eq_nil_iff.symm
  have hjoined : decide (s'.previous = some '&') = decide (s.previous = some '&') :=
    decide_eq_decide.2 h.previous_eq_iff
  rw [feed_eq_perform, feed_eq_perform, hminus, hempty, hjoined, h.expectsOperand_eq]
  have hcause := stepOf_cause c (s.run = ['-']) (s.run = []) s.expectsOperand
    (s.previous = some '&')
  revert hcause
  generalize stepOf c _ _ _ _ = step
  intro hcause
  have hflush : StateAgree cells move named' s.flush s'.flush := flush_agree h
  cases step with
  | skip => exact h.of_run_nil (by simpa using hcause.resolve_left hspace)
  | quote => exact { hflush with previous := .inl rfl, quote := rfl }
  | gather d =>
    rcases hcause with halnum | ⟨-, hgathers⟩
    · rw [isGathered_of_isAlnum halnum] at hgathered
      cases hgathered
    · rw [hgathers hop] at hgathered
      cases hgathered
  | cancel => exact { h with run := .nil, previous := .inl rfl }
  | sign => exact { h with run := .minus, previous := .inl rfl }
  | spell => exact { hflush with output := hflush.output.quoted _, previous := .inl rfl }
  | operate op => exact { pushOp_agree op hflush with previous := .inl rfl }
  | opening => exact absurd hcause hparen
  | closing => exact { closeParen_agree hflush with previous := .inl rfl }
  | comma => exact { comma_agree hflush with previous := .inl rfl }
  | colon =>
    cases cells with
    | true => exact absurd hcause (hcolon rfl)
    | false => exact { colon_agree hflush with previous := .inl rfl }

/-- Reading a character outside words keeps states agreeing. -/
theorem feed_agree {c : Char} {cs : List Char}
    (h : StateAgree cells move (opensCall (Address.piecesFrom false (c :: cs))) s s')
    (hword : Text.isWord c = false) (hop : c ≠ '<' ∧ c ≠ '>' ∧ c ≠ '=')
    (hcolon : cells = true → c ≠ ':') :
    StateAgree cells move (opensCall (Address.piecesFrom (c == '"') cs)) (s.feed c)
      (s'.feed c) := by
  rw [opensCall_plain cs hword] at h
  by_cases hspace : c = ' '
  · subst hspace
    exact h
  by_cases hparen : c = '('
  · subst hparen
    rw [feed_paren, feed_paren]
    exact { openParen_agree h with previous := .inl rfl }
  rw [show (c == '(') = false by simpa using hparen, show (c == ' ') = false by simpa using hspace,
    Bool.false_or, Bool.or_false] at h
  cases hgathered : isGathered c with
  | true =>
    -- The character goes into the run on both sides.
    have hquote : (c == '"') = false := beq_eq_false_iff_ne.2 (isGathered_iff.1 hgathered).2.1
    have halnum := isAlnum_of_isWord hword
    have hupper : Text.upper c = c :=
      Text.upper_of_not_isLetter (Bool.or_eq_false_iff.1 halnum).1
    rw [hgathered, Bool.true_and] at h
    rw [feed_gathered hgathered, feed_gathered hgathered, hupper, hquote]
    exact { h with run := h.run.snoc halnum hgathered, previous := .inl rfl }
  | false =>
    rw [hgathered, Bool.false_and] at h
    exact end_agree h hgathered hspace hparen hop hcolon

end Converter

end Formula

end Worksheet
