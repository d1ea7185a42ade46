import Worksheet.Formula.Evaluation
import Worksheet.Proofs.Formula.Operand

/-!
# Where Circular Failures Come From

Nothing computes a circular failure from other values.

An operator or a function fails because of what it is given, or for a reason of its
own: a malformed expression, a division by zero, a name that nobody knows. That
something refers to itself is never such a reason. So a circular failure that comes
out of an operator or a function went in, and where none goes in, none comes out.

## Theorems

* `circular_of_binary`: Operators have circular failures from their operands.
* `circular_mem_of_callByName`: Functions have them from their arguments.
* `circular_mem_of_applyOp`, `circular_mem_of_applyCall`, `circular_mem_of_stackValue`:
  A stack has them from the stack before.
-/

namespace Worksheet

namespace Formula

/-! ## Values -/

/-- A text that is no formula is no failure. -/
theorem ofText_ne_failure (text : String) (e : Failure) : Value.ofText text ≠ .failure e := by
  unfold Value.ofText
  cases Number.ofText? text <;> exact Value.noConfusion

/-- A minus sign makes no failure. -/
theorem eq_failure_of_negate {v : Value} {e : Failure} (h : negate v = .failure e) :
    v = .failure e := by
  unfold negate at h
  split at h
  · cases h
  · exact h

theorem eq_failure_of_signed {negative : Bool} {v : Value} {e : Failure}
    (h : signed negative v = .failure e) : v = .failure e := by
  cases negative with
  | false => exact h
  | true => exact eq_failure_of_negate h

/-- A computation with two numbers fails only as a division or a malformed expression. -/
theorem compute_ne_circular (op : Operator) (x y : Float) :
    compute op x y ≠ .failure .circular := by
  cases op with
  | div =>
    simp only [compute]
    split <;> simp
  | _ => simp [compute]

/-- The outcome of a comparison fails only as a malformed expression. -/
theorem satisfies_ne_circular (op : Operator) (o : Ordering) :
    satisfies op o ≠ .failure .circular := by
  cases op <;> simp [satisfies]

theorem circular_of_arithmetic {op : Operator} {a b : Value}
    (h : arithmetic op a b = .failure .circular) :
    a = .failure .circular ∨ b = .failure .circular := by
  unfold arithmetic at h
  split at h
  · exact .inl h
  · exact .inr h
  · split at h
    · exact absurd h (compute_ne_circular op _ _)
    · cases h

theorem circular_of_comparison {op : Operator} {a b : Value}
    (h : comparison op a b = .failure .circular) :
    a = .failure .circular ∨ b = .failure .circular := by
  unfold comparison at h
  split at h
  · exact .inl h
  · exact .inr h
  · dsimp only at h
    split at h
    · exact absurd h (satisfies_ne_circular op _)
    · cases h

theorem circular_of_join {a b : Value} (h : join a b = .failure .circular) :
    a = .failure .circular ∨ b = .failure .circular := by
  unfold join at h
  split at h
  · exact .inl h
  · exact .inr h
  · cases h

/-- Operators have circular failures from their operands only. -/
theorem circular_of_binary {op : Operator} {a b : Value} (h : binary op a b = .failure .circular) :
    a = .failure .circular ∨ b = .failure .circular := by
  cases op with
  | add | sub | mul | div => exact circular_of_arithmetic h
  | concat => exact circular_of_join h
  | eq | ne | lt | le | gt | ge => exact circular_of_comparison h

/-! ## Functions -/

/-- What counts as no number because of a circular failure is one. -/
theorem circular_of_toNumber {v : Value} (h : v.toNumber = .error .circular) :
    v = .failure .circular := by
  cases v with
  | number x | boolean b => cases h
  | text s =>
    simp only [Value.toNumber] at h
    split at h
    · cases h
    · split at h <;> cases h
  | failure e =>
    rw [Value.toNumber, Except.error.injEq] at h
    rw [h]

/-- What is no truth value because of a circular failure is one. -/
theorem circular_of_toBool {v : Value} (h : v.toBool = .error .circular) :
    v = .failure .circular := by
  cases v with
  | number x | boolean b => cases h
  | text s =>
    simp only [Value.toBool] at h
    split at h
    · cases h
    · split at h <;> cases h
  | failure e =>
    rw [Value.toBool, Except.error.injEq] at h
    rw [h]

theorem circular_mem_of_numbers {args : List Value} (h : numbers args = .error .circular) :
    .failure .circular ∈ args := by
  induction args with
  | nil => cases h
  | cons v vs ih =>
    rw [numbers] at h
    cases hv : v.toNumber with
    | error e =>
      rw [hv] at h
      cases h
      exact List.mem_cons.2 (.inl (circular_of_toNumber hv).symm)
    | ok x =>
      rw [hv] at h
      cases hvs : numbers vs with
      | error e =>
        simp only [hvs] at h
        cases h
        exact List.mem_cons_of_mem _ (ih hvs)
      | ok xs =>
        simp only [hvs] at h
        cases h

/-- A function that fails with the first failure has it from its arguments. -/
theorem circular_mem_of_firstFailure {args : List Value} {v : Value} (hv : v ≠ .failure .circular)
    (h : (firstFailure? args).getD v = .failure .circular) : .failure .circular ∈ args := by
  cases hfirst : firstFailure? args with
  | none =>
    rw [hfirst] at h
    exact absurd h hv
  | some w =>
    rw [hfirst, Option.getD_some] at h
    rw [← h]
    exact List.mem_of_find?_eq_some hfirst

/-- A sum has a circular failure from one of its terms. -/
theorem circular_mem_of_sumOf {args : List Value} (h : sumOf args = .failure .circular) :
    .failure .circular ∈ args := by
  have hfold (start : Value) (h : args.foldl (arithmetic .add) start = .failure .circular) :
      start = .failure .circular ∨ .failure .circular ∈ args := by
    clear * -h
    induction args generalizing start with
    | nil => exact .inl h
    | cons v vs ih =>
      rcases ih _ h with hsum | hmem
      · rcases circular_of_arithmetic hsum with hstart | hv
        · exact .inl hstart
        · exact .inr (List.mem_cons.2 (.inl hv.symm))
      · exact .inr (List.mem_cons_of_mem _ hmem)
  exact (hfold _ h).resolve_left (by simp)

theorem circular_mem_of_averageOf {args : List Value} (h : averageOf args = .failure .circular) :
    .failure .circular ∈ args := by
  unfold averageOf at h
  split at h
  · cases h
  · split at h
    · cases h
    · rename_i e hnumbers
      cases h
      exact circular_mem_of_numbers hnumbers

theorem circular_mem_of_extremeOf {pick : Float → Float → Float} {args : List Value}
    (h : extremeOf pick args = .failure .circular) : .failure .circular ∈ args := by
  unfold extremeOf at h
  split at h
  · cases h
  · cases h
  · rename_i e hnumbers
    cases h
    exact circular_mem_of_numbers hnumbers

theorem circular_of_choose {c a b : Value} (h : condOf.choose c a b = .failure .circular) :
    c = .failure .circular ∨ a = .failure .circular ∨ b = .failure .circular := by
  unfold condOf.choose at h
  split at h
  · exact .inr (.inl h)
  · exact .inr (.inr h)
  · rename_i e hcond
    cases h
    exact .inl (circular_of_toBool hcond)

theorem circular_mem_of_condOf {args : List Value} (h : condOf args = .failure .circular) :
    .failure .circular ∈ args := by
  unfold condOf at h
  split at h
  · rcases circular_of_choose h with rfl | rfl | hb
    · simp
    · simp
    · cases hb
  · rcases circular_of_choose h with rfl | rfl | rfl <;> simp
  · cases h

theorem circular_mem_of_allOf {args : List Value} (h : allOf args = .failure .circular) :
    .failure .circular ∈ args := by
  unfold allOf at h
  split at h
  · cases h
  · exact circular_mem_of_firstFailure (by simp) h

theorem circular_mem_of_anyOf {args : List Value} (h : anyOf args = .failure .circular) :
    .failure .circular ∈ args := by
  unfold anyOf at h
  split at h
  · cases h
  · exact circular_mem_of_firstFailure (by simp) h

theorem circular_mem_of_md5Of {args : List Value} (h : md5Of args = .failure .circular) :
    .failure .circular ∈ args := by
  unfold md5Of at h
  split at h
  · rw [h]
    exact List.mem_singleton_self _
  · cases h
  · cases h

/-- Functions have circular failures from their arguments only. -/
theorem circular_mem_of_apply {f : Function} {args : List Value}
    (h : f.apply args = .failure .circular) : .failure .circular ∈ args := by
  cases f with
  | sum => exact circular_mem_of_sumOf h
  | average => exact circular_mem_of_averageOf h
  | max | min => exact circular_mem_of_extremeOf h
  | cond => exact circular_mem_of_condOf h
  | and => exact circular_mem_of_allOf h
  | or => exact circular_mem_of_anyOf h
  | concat => exact circular_mem_of_firstFailure (by simp) h
  | md5 => exact circular_mem_of_md5Of h

theorem circular_mem_of_callByName {name : String} {args : List Value}
    (h : callByName name args = .failure .circular) : .failure .circular ∈ args := by
  unfold callByName at h
  split at h
  · exact circular_mem_of_apply h
  · cases h

/-! ## Stacks -/

theorem circular_mem_of_applyOp {op : Operator} {stack stack' : List Value}
    (h : applyOp op stack = some stack') (hmem : .failure .circular ∈ stack') :
    .failure .circular ∈ stack := by
  unfold applyOp at h
  split at h
  · cases h
    rcases List.mem_cons.1 hmem with hv | hrest
    · rcases circular_of_binary hv.symm with rfl | rfl <;> simp
    · exact List.mem_cons_of_mem _ (List.mem_cons_of_mem _ hrest)
  · split at h
    · cases h
      rw [List.mem_singleton] at hmem
      rw [eq_failure_of_negate hmem.symm]
      exact List.mem_singleton_self _
    · cases h
  · cases h

theorem circular_mem_of_applyCall {name : String} {arity : Nat} {stack stack' : List Value}
    (h : applyCall name arity stack = some stack') (hmem : .failure .circular ∈ stack') :
    .failure .circular ∈ stack := by
  unfold applyCall at h
  split at h
  · cases h
  · cases h
    rcases List.mem_cons.1 hmem with hv | hrest
    · exact List.mem_of_mem_take (List.mem_reverse.1 (circular_mem_of_callByName hv.symm))
    · exact List.mem_of_mem_drop hrest

theorem circular_mem_of_stackValue {stack : List Value}
    (h : stackValue stack = .failure .circular) :
    .failure .circular ∈ stack := by
  unfold stackValue at h
  split at h
  · cases h
  · rw [h]
    exact List.mem_singleton_self _
  · cases h

end Formula

end Worksheet
