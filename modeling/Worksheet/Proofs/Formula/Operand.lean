import Worksheet.Formula.Evaluation
import Worksheet.Proofs.Address.Notation

/-!
# What Operands Mean

The decision that an operand is read by, apart from the resolver.

An operand is a value of its own or names a cell, and which of the two it is
depends on its text alone. Evaluation makes the decision and acts on it in one
go, which is how it runs, but everything that is said about two evaluations of
the same tokens, or about the tokens themselves, needs the decision only.
`operand_eq` takes it out of the evaluation.

A cell without a sign is exactly a text that spells one, which is also what
the converter looks for at the end of a range.

A token that is no operand looks at the stack only. It changes the stack or finds
too few values on it, which ends the run.

## Main definitions

* `Meaning`: A value or a cell.
* `meaning`: The meaning of a text without a sign.
* `splitSign`: The sign, and the text after it.
* `Token.cell?`: The cell that a token refers to.
* `Token.action?`: What a token that is no operand does to the stack.

## Theorems

* `operand_eq`: Evaluating an operand acts on its meaning, and then its sign.
* `meaning_eq_cell_iff`: A text means a cell exactly when it spells one.
* `run_value`, `run_cell`, `run_action`: What the first token does.
* `evaluateCell_operand`: The value of a formula of one operand.
-/

namespace Worksheet

namespace Formula

/-- A value with a minus sign in front, or without one. -/
def signed (negative : Bool) (v : Value) : Value := if negative then negate v else v

/-- What an operand stands for, apart from its sign. -/
inductive Meaning where
  | value (v : Value)
  | cell (c : CellRef)

namespace Meaning

/-- The value of a meaning. -/
def eval (resolve : Resolver) (s : Scope) : Meaning → Value × Scope
  | .value v => (v, s)
  | .cell c => resolve c s

/-- The meaning with its cell replaced. -/
def map (f : CellRef → CellRef) : Meaning → Meaning
  | .value v => .value v
  | .cell c => .cell (f c)

/-- The cell that is meant. -/
def cell? : Meaning → Option CellRef
  | .value _ => none
  | .cell c => some c

end Meaning

/-- The meaning of a text without a minus sign in front. -/
def meaning (body : String) : Meaning :=
  match body.toList.head? with
  | some c =>
    if Text.isDigit c || c == '.' then
      match Number.ofText? body with
      | some x => .value (.number x)
      | none => .value (.failure .value)
    else if body = "TRUE" then .value (.boolean true)
    else if body = "FALSE" then .value (.boolean false)
    else match Failure.ofSentinel? body with
      | some e => .value (.failure e)
      | none => match CellRef.ofText? body with
        | some cell => .cell cell
        | none => .value (.failure .name)
  | none => .value (.failure .name)

/-- A minus sign in front, and the text after it. -/
def splitSign (text : String) : Bool × String :=
  match text.toList with
  | '-' :: body => (true, String.ofList body)
  | _ => (false, text)

/-- The cell that a token refers to. -/
def Token.cell? : Token → Option CellRef
  | .operand text => (meaning (splitSign text).2).cell?
  | _ => none

/-- What a token that is no operand does to the stack, unless it finds too few values. -/
def Token.action? : Token → Option (List Value → Option (List Value))
  | .operand _ => none
  | .quoted text => some fun stack => some (.text text :: stack)
  | .op o => some (applyOp o)
  | .func name arity => some (applyCall name arity)
  | .call name arity => some (applyCall name arity)

/-- Without a sign, evaluating an operand acts on its meaning. -/
theorem operandValue_eq (resolve : Resolver) (body : String) (s : Scope) :
    operandValue resolve body s = (meaning body).eval resolve s := by
  -- Both go through the same questions in the same order.
  unfold operandValue meaning
  cases body.toList.head? with
  | none => rfl
  | some c =>
    simp only
    by_cases hnumber : (Text.isDigit c || c == '.') = true
    · rw [if_pos hnumber, if_pos hnumber]
      cases Number.ofText? body <;> rfl
    · rw [if_neg hnumber, if_neg hnumber]
      by_cases htrue : body = "TRUE"
      · rw [if_pos htrue, if_pos htrue]
        rfl
      · rw [if_neg htrue, if_neg htrue]
        by_cases hfalse : body = "FALSE"
        · rw [if_pos hfalse, if_pos hfalse]
          rfl
        · rw [if_neg hfalse, if_neg hfalse]
          cases Failure.ofSentinel? body with
          | some e => rfl
          | none => cases CellRef.ofText? body <;> rfl

/-- Evaluating an operand acts on its meaning, and then its sign. -/
theorem operand_eq (resolve : Resolver) (text : String) (s : Scope) :
    operand resolve text s =
      (signed (splitSign text).1 ((meaning (splitSign text).2).eval resolve s).1,
        ((meaning (splitSign text).2).eval resolve s).2) := by
  -- A match on the first character, once in the evaluation and once in the split.
  by_cases hsign : ∃ body, text.toList = '-' :: body
  · obtain ⟨body, hbody⟩ := hsign
    simp only [operand, splitSign, hbody]
    rw [operandValue_eq]
    rfl
  · have hplain : operand resolve text s = operandValue resolve text s := by
      unfold operand
      split
      · exact absurd ⟨_, ‹_›⟩ hsign
      · rfl
    have hbare : splitSign text = (false, text) := by
      unfold splitSign
      split
      · exact absurd ⟨_, ‹_›⟩ hsign
      · rfl
    rw [hplain, hbare, operandValue_eq]
    rfl

/-- No sentinel spells a cell. -/
theorem ofSentinel?_of_ofText? {body : String} {r : CellRef} (h : CellRef.ofText? body = some r) :
    Failure.ofSentinel? body = none := by
  cases hs : Failure.ofSentinel? body with
  | none => rfl
  | some e =>
    have hbody : e.sentinel = body := by
      have := List.find?_some hs
      simpa using this
    -- There are few sentinels, and none of them has the form of a cell.
    have hnone : CellRef.ofText? e.sentinel = none := by cases e <;> decide
    rw [← hbody, hnone] at h
    exact absurd h (by simp)

/-- The text of a cell begins with a letter. -/
theorem ofText?_head {body : String} {r : CellRef} (h : CellRef.ofText? body = some r) :
    ∃ c, body.toList.head? = some c ∧ Text.isLetter c = true := by
  rcases CellRef.ofChars?_eq_some_iff.1 h with ⟨letters, digits, heq, hs⟩
  rcases List.exists_cons_of_ne_nil hs.letters_ne_nil with ⟨c, cs, hcs⟩
  exact ⟨c, by simp [heq, hcs], hs.isLetter c (by simp [hcs])⟩

/-- A text means a cell exactly when it spells one: the texts that are read as
    something else before that spell none. -/
theorem meaning_eq_cell_iff {body : String} {r : CellRef} :
    meaning body = .cell r ↔ CellRef.ofText? body = some r := by
  constructor
  · intro h
    unfold meaning at h
    split at h
    · split at h
      · split at h <;> exact absurd h (by simp)
      · split at h
        · exact absurd h (by simp)
        · split at h
          · exact absurd h (by simp)
          · split at h
            · exact absurd h (by simp)
            · split at h
              · rename_i hcell
                rw [Meaning.cell.injEq] at h
                rw [hcell, h]
              · exact absurd h (by simp)
    · exact absurd h (by simp)
  · intro h
    rcases ofText?_head h with ⟨c, hc, hletter⟩
    have hpoint : (Text.isDigit c || c == '.') = false := by
      rw [Text.isDigit_of_isLetter hletter, Bool.false_or, beq_eq_false_iff_ne]
      rintro rfl
      exact absurd hletter (by decide)
    -- A word that spells no cell is not the text at hand.
    have hword (w : String) (hw : CellRef.ofText? w = none) : body ≠ w := by
      rintro rfl
      rw [h] at hw
      exact absurd hw (by simp)
    unfold meaning
    rw [hc]
    simp only [hpoint, Bool.false_eq_true, if_false, hword "TRUE" (by decide),
      hword "FALSE" (by decide), ofSentinel?_of_ofText? h, h]

/-- A text that does not begin with a minus sign has none. -/
theorem splitSign_of_head {cs : List Char} (h : cs.head? ≠ some '-') :
    splitSign (String.ofList cs) = (false, String.ofList cs) := by
  unfold splitSign
  rw [String.toList_ofList]
  split
  · exact absurd rfl h
  · rfl

/-- The sign in front of a text is split off again. -/
theorem splitSign_minus (cs : List Char) :
    splitSign (String.ofList ('-' :: cs)) = (true, String.ofList cs) := by
  simp only [splitSign, String.toList_ofList]

/-! ## Tokens -/

section

variable {resolve : Resolver} {ts : List Token} {stack : List Value} {s : Scope} {text : String}

/-- An operand that is a value of its own goes onto the stack. -/
theorem run_value (h : meaning (splitSign text).2 = .value w) :
    run resolve (.operand text :: ts) stack s =
      run resolve ts (signed (splitSign text).1 w :: stack) s := by
  rw [run, operand_eq, h]
  rfl

/-- An operand that is a reference is resolved first. -/
theorem run_cell (h : meaning (splitSign text).2 = .cell c) :
    run resolve (.operand text :: ts) stack s =
      run resolve ts (signed (splitSign text).1 (resolve c s).1 :: stack) (resolve c s).2 := by
  rw [run, operand_eq, h]
  rfl

/-- Any other token changes the stack, or ends the run. -/
theorem run_action {t : Token} {act : List Value → Option (List Value)}
    (h : t.action? = some act) :
    run resolve (t :: ts) stack s =
      (act stack).elim (.failure .value, s) fun stack => run resolve ts stack s := by
  cases t with
  | operand text => cases h
  | quoted text =>
    cases h
    rfl
  | op o =>
    cases h
    rw [run]
    cases applyOp o stack <;> rfl
  | func name arity | call name arity =>
    cases h
    rw [run]
    cases applyCall name arity stack <;> rfl

/-- A token is an operand or acts on the stack. -/
theorem action?_cases (t : Token) : (∃ text, t = .operand text) ∨ ∃ act, t.action? = some act := by
  cases t with
  | operand text => exact .inl ⟨text, rfl⟩
  | _ => exact .inr ⟨_, rfl⟩

end

/-! ## Formulas of one operand -/

/-- The value of a formula that is one operand without a sign. -/
theorem evaluateCell_operand {limits : Limits} {lookup : Lookup} {cell : CellRef} {body : List Char}
    {text : String} (hbody : (lookup cell).toList = '=' :: body)
    (htokens : postfixOf limits.rangeCells body = [.operand text])
    (hsign : splitSign text = (false, text)) :
    (evaluateCell limits lookup cell).1 =
      ((meaning text).eval (resolver limits lookup) { active := [cell] }).1 := by
  unfold evaluateCell renderWith
  rw [hbody]
  simp only
  rw [htokens, run, operand_eq, hsign]
  rfl

/-- Within the limits, a new cell without a formula has the value of its text. -/
theorem resolver_plain {limits : Limits} {lookup : Lookup} {c : CellRef} {s : Scope}
    (hactive : s.active.contains c = false) (hsettled : s.settled[c]? = none)
    (hlimits : ¬ (limits.depth ≤ s.active.length ∨ limits.resolutions ≤ s.resolved.size))
    (hplain : (lookup c).toList.head? ≠ some '=') :
    (resolver limits lookup c s).1 = Value.ofText (lookup c) := by
  unfold resolver
  rw [resolve, hactive, if_neg (by decide), hsettled]
  simp only
  rw [if_neg hlimits]
  unfold renderWith
  split
  · rename_i body hbody
    rw [hbody] at hplain
    exact absurd rfl hplain
  · simp only
    split <;> rfl

end Formula

end Worksheet
