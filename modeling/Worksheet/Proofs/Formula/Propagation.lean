import Worksheet.Proofs.Formula.Approximation

/-!
# Failures That Stay Failures

A failure that is met once is met to the end.

A failure could get lost wherever a value is read as something else: as a number,
as a text, as a truth value. Operators and functions look for failures before
they read anything, with one exception. A choice reads its condition and one
branch, and what it does not read may be a failure.

So without a choice, a stack with a failure on it leaves another one behind,
whichever token comes next, and whatever the run makes of it in the end is a
failure too. A program that is malformed is no way out: it ends the run with a
failure of its own.

## Main definitions

* `HasFailure`: There is a failure among the values.
* `Token.callee?`: The name that a token calls.
* `Token.step`: What a token does to the stack and to what is known.
* `produced`: The values that a run meets, in order.

## Theorems

* `binary_isFailure`, `apply_isFailure`: Operators keep failures, and so do all
  functions but the choice.
* `HasFailure.step`: One token keeps a failure on the stack, or ends the run.
* `HasFailure.run`: A run from a stack with a failure ends with one.
* `run_isFailure_of_produced`: A failure met while tokens run is the result.
-/

namespace Worksheet

namespace Formula

/-- There is a failure among the values. -/
def HasFailure (vs : List Value) : Prop := ∃ v ∈ vs, v.isFailure = true

/-- The name that a token calls. -/
def Token.callee? : Token → Option String
  | .func name _ => some name
  | .call name _ => some name
  | _ => none

/-- What a token leaves on the stack, or nothing when it finds too few values. -/
def Token.step (resolve : Resolver) (t : Token) (stack : List Value) (s : Scope) :
    Option (List Value) × Scope :=
  match t with
  | .operand text => (some ((Formula.operand resolve text s).1 :: stack),
      (Formula.operand resolve text s).2)
  | .quoted text => (some (.text text :: stack), s)
  | .op o => (applyOp o stack, s)
  | .func name arity => (applyCall name arity stack, s)
  | .call name arity => (applyCall name arity stack, s)

/-- The values that tokens produce while they run: of each token the one it puts on
    the stack, or the failure that ends the run. -/
def produced (resolve : Resolver) : List Token → List Value → Scope → List Value
  | [], _, _ => []
  | t :: ts, stack, s => match t.step resolve stack s with
    | (some stack, s) => stack.take 1 ++ produced resolve ts stack s
    | (none, _) => [.failure .value]

namespace HasFailure

variable {v : Value} {vs ws : List Value}

theorem head (h : v.isFailure = true) : HasFailure (v :: vs) :=
  ⟨v, List.mem_cons_self, h⟩

theorem mono (h : HasFailure vs) (hsub : ∀ v ∈ vs, v ∈ ws) : HasFailure ws := by
  rcases h with ⟨v, hv, hfail⟩
  exact ⟨v, hsub v hv, hfail⟩

/-- A failure in a list is its first element or further on. -/
theorem cons_iff : HasFailure (v :: vs) ↔ v.isFailure = true ∨ HasFailure vs := by
  simp only [HasFailure, List.mem_cons, exists_eq_or_imp]

end HasFailure

/-! ## Operators -/

/-- An operator with a failure on either side fails. -/
theorem binary_isFailure (op : Operator) {a b : Value}
    (h : a.isFailure = true ∨ b.isFailure = true) : (binary op a b).isFailure = true := by
  rcases isFailure_cases a with ⟨e, rfl⟩ | ha
  · rw [binary_failure]
    rfl
  · rcases isFailure_cases b with ⟨e, rfl⟩ | hb
    · rw [binary_failure_right op ha]
      rfl
    · simp [ha, hb] at h

/-- A minus sign leaves a failure alone. -/
theorem negate_isFailure {v : Value} (h : v.isFailure = true) : (negate v).isFailure = true := by
  cases v with
  | failure e => rfl
  | _ => cases h

/-! ## Functions -/

/-- Arguments with a failure among them do not count as numbers. -/
theorem HasFailure.numbers {args : List Value} (h : HasFailure args) :
    ∃ e, numbers args = .error e := by
  induction args with
  | nil => exact absurd h (by simp [HasFailure])
  | cons v vs ih =>
    rcases isFailure_cases v with ⟨e, rfl⟩ | hv
    · exact ⟨e, rfl⟩
    · have hrest : HasFailure vs := (HasFailure.cons_iff.1 h).resolve_left (by simp [hv])
      rcases ih hrest with ⟨e, he⟩
      rw [Formula.numbers]
      cases v.toNumber with
      | error e' => exact ⟨e', rfl⟩
      | ok x => exact ⟨e, by rw [he]⟩

/-- A function that fails with the first failure does not get to what else it
    computes. -/
theorem HasFailure.firstFailure {args : List Value} (h : HasFailure args) (w : Value) :
    ((firstFailure? args).getD w).isFailure = true := by
  rcases h with ⟨v, hv, hfail⟩
  cases hfirst : firstFailure? args with
  | none => exact absurd hfail (List.find?_eq_none.1 hfirst v hv)
  | some w' => exact List.find?_some hfirst

/-- A sum that has failed stays failed, and fails at the first term that does. -/
theorem foldl_isFailure {start : Value} {args : List Value}
    (h : start.isFailure = true ∨ HasFailure args) :
    (args.foldl (arithmetic .add) start).isFailure = true := by
  induction args generalizing start with
  | nil => exact h.resolve_right (by simp [HasFailure])
  | cons v vs ih =>
    rw [HasFailure.cons_iff, ← or_assoc] at h
    exact ih (h.imp_left (binary_isFailure .add))

/-- Every function but the choice fails when an argument is a failure. -/
theorem apply_isFailure {f : Function} (hf : f ≠ .cond) {args : List Value} (h : HasFailure args) :
    (f.apply args).isFailure = true := by
  cases f with
  | sum => exact foldl_isFailure (.inr h)
  | average =>
    rcases h.numbers with ⟨e, he⟩
    simp only [Function.apply, averageOf, he]
    cases args <;> rfl
  | max | min =>
    rcases h.numbers with ⟨e, he⟩
    simp only [Function.apply, extremeOf, he]
    rfl
  | cond => exact absurd rfl hf
  | and | or =>
    cases args with
    | nil => rfl
    | cons v vs => exact h.firstFailure _
  | concat => exact h.firstFailure _
  | md5 =>
    rcases args with _ | ⟨v, _ | ⟨w, vs⟩⟩
    · rfl
    · rcases isFailure_cases v with ⟨e, rfl⟩ | hv
      · rfl
      · simp [HasFailure, hv] at h
    · -- More than one argument fails in any case.
      simp [Function.apply, md5Of, Value.isFailure]

/-- A call fails when an argument is a failure, unless it is called as a choice. -/
theorem callByName_isFailure {name : String} (hname : name ≠ Function.cond.name)
    {args : List Value} (h : HasFailure args) : (callByName name args).isFailure = true := by
  unfold callByName
  split
  · rename_i f hf
    refine apply_isFailure ?_ h
    rintro rfl
    have : Function.cond.name = name := by simpa using List.find?_some hf
    exact hname this.symm
  · rfl

/-! ## Stacks -/

theorem HasFailure.applyOp {op : Operator} {stack stack' : List Value} (h : HasFailure stack)
    (heq : applyOp op stack = some stack') : HasFailure stack' := by
  unfold Formula.applyOp at heq
  split at heq
  · cases heq
    rw [HasFailure.cons_iff, HasFailure.cons_iff, ← or_assoc] at h
    exact HasFailure.cons_iff.2 (h.imp_left fun h => binary_isFailure op h.symm)
  · split at heq
    · cases heq
      have hfailure := (HasFailure.cons_iff.1 h).resolve_right (by simp [HasFailure])
      exact .head (negate_isFailure hfailure)
    · cases heq
  · cases heq

/-- A failure on the stack is an argument of the call, or stays below it. -/
theorem HasFailure.applyCall {name : String} (hname : name ≠ Function.cond.name) {arity : Nat}
    {stack stack' : List Value} (h : HasFailure stack)
    (heq : applyCall name arity stack = some stack') : HasFailure stack' := by
  unfold Formula.applyCall at heq
  split at heq
  · cases heq
  · cases heq
    rcases h with ⟨v, hv, hfail⟩
    rw [← List.take_append_drop arity stack, List.mem_append] at hv
    rcases hv with hv | hv
    · exact .head (callByName_isFailure hname ⟨v, List.mem_reverse.2 hv, hfail⟩)
    · exact ⟨v, List.mem_cons_of_mem _ hv, hfail⟩

/-- A stack with a failure on it leaves a failure at the end: it is the only value,
    or there are several. -/
theorem HasFailure.stackValue {stack : List Value} (h : HasFailure stack) :
    (stackValue stack).isFailure = true := by
  rcases stack with _ | ⟨v, _ | ⟨w, vs⟩⟩
  · exact absurd h (by simp [HasFailure])
  · exact (HasFailure.cons_iff.1 h).resolve_right (by simp [HasFailure])
  · rfl

/-! ## Runs -/

section

variable {resolve : Resolver} {t : Token} {ts : List Token} {stack stack' : List Value}
  {s s' : Scope}

/-- A token that is no operand knows nothing of the lookup. -/
theorem step_of_action {act : List Value → Option (List Value)} (h : t.action? = some act) :
    t.step resolve stack s = (act stack, s) := by
  cases t with
  | operand text => cases h
  | _ =>
    cases h
    rfl

/-- A run takes one step after the other, until a token finds too few values. -/
theorem run_cons : run resolve (t :: ts) stack s = match t.step resolve stack s with
    | (some stack, s) => run resolve ts stack s
    | (none, s) => (.failure .value, s) := by
  rcases action?_cases t with ⟨text, rfl⟩ | ⟨act, hact⟩
  · rw [run, Token.step]
  · rw [run_action hact, step_of_action hact]
    cases act stack <;> rfl

/-- A token that is no choice keeps a failure on the stack. -/
theorem HasFailure.step (ht : t.callee? ≠ some Function.cond.name) (h : HasFailure stack)
    (heq : t.step resolve stack s = (some stack', s')) : HasFailure stack' := by
  cases t with
  | operand text | quoted text =>
    cases heq
    exact h.mono fun v hv => List.mem_cons_of_mem _ hv
  | op o => exact h.applyOp (Prod.ext_iff.1 heq).1
  | func name arity | call name arity =>
    exact h.applyCall (fun hname => ht (congrArg some hname)) (Prod.ext_iff.1 heq).1

/-- Without a choice, a run from a stack with a failure on it ends with a failure. -/
theorem HasFailure.run (hts : ∀ t ∈ ts, t.callee? ≠ some Function.cond.name)
    (h : HasFailure stack) : (run resolve ts stack s).1.isFailure = true := by
  induction ts generalizing stack s with
  | nil => exact h.stackValue
  | cons t ts ih =>
    rw [run_cons]
    split
    · rename_i stack' s' heq
      exact ih (fun t ht => hts t (List.mem_cons_of_mem _ ht))
        (h.step (hts t List.mem_cons_self) heq)
    · rfl

/-- Without a choice, a failure that any token produces makes the run end with one,
    from every stack. -/
theorem run_isFailure_of_mem (hts : ∀ t ∈ ts, t.callee? ≠ some Function.cond.name) {v : Value}
    (hv : v ∈ produced resolve ts stack s) (hfail : v.isFailure = true) :
    (run resolve ts stack s).1.isFailure = true := by
  induction ts generalizing stack s with
  | nil => cases hv
  | cons t ts ih =>
    have hrest : ∀ t ∈ ts, t.callee? ≠ some Function.cond.name :=
      fun t ht => hts t (List.mem_cons_of_mem _ ht)
    rw [run_cons]
    rw [produced] at hv
    split
    · rename_i stack' s' heq
      rw [heq] at hv
      -- The failure is on the stack now, or it is produced later on.
      rcases List.mem_append.1 hv with hnow | hlater
      · exact HasFailure.run hrest ⟨v, List.mem_of_mem_take hnow, hfail⟩
      · exact ih hrest hlater
    · rfl

end

/-- Unless a choice is called, whatever the lookup and the limits, and however the
    tokens are put together, a failure met while they run is the result. -/
theorem run_isFailure_of_produced (limits : Limits) (lookup : Lookup) (tokens : List Token)
    (s : Scope) (hcond : ∀ t ∈ tokens, t.callee? ≠ some Function.cond.name)
    (h : HasFailure (produced (resolver limits lookup) tokens [] s)) :
    (run (resolver limits lookup) tokens [] s).1.isFailure = true := by
  rcases h with ⟨v, hv, hfail⟩
  exact run_isFailure_of_mem hcond hv hfail

/-- A quotient by zero is joined to a text and digested, and is a failure all the
    same. -/
theorem run_isFailure_of_produced_digest :
    let tokens : List Token :=
      [.operand "1", .operand "0", .op .div, .quoted "x", .op .concat, .func "MD5" 1]
    (∀ t ∈ tokens, t.callee? ≠ some Function.cond.name) ∧
      HasFailure (produced (resolver {} fun _ => "") tokens [] {}) ∧
      (run (resolver {} fun _ => "") tokens [] {}).1.isFailure = true := by
  intro tokens
  have hcond : ∀ t ∈ tokens, t.callee? ≠ some Function.cond.name := by decide
  have hmet : HasFailure (produced (resolver {} fun _ => "") tokens [] {}) :=
    ⟨.failure .division, by decide, rfl⟩
  exact ⟨hcond, hmet, run_isFailure_of_produced _ _ _ _ hcond hmet⟩

end Formula

end Worksheet
