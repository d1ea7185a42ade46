import Mathlib.Data.List.Forall2
import Worksheet.Proofs.Formula.Operand

/-!
# Values That May Yet Be Known

The circular failure as the least value.

A chain of references that runs into itself, or that is cut off by a limit,
answers with the circular failure. Seen from the outside that failure stands
for a value that was not found out, so values are ordered flatly with it at
the bottom: one value approximates another when it is the circular failure or
the same value.

Everything a formula computes respects this order. An operator or a function
ignores a circular argument only when its result does not depend on that
argument, because it is in the branch that was not taken or because an earlier
argument had already failed. Replacing circular failures by values therefore
changes a result only if the result was circular itself.

## Main definitions

* `Approximates`: One value is the circular failure or the other value.

## Theorems

* `binary_approximates`: Operators respect the order.
* `numbers_approximates`, `firstFailure?_approximates`: What functions read
  from their arguments.
* `callByName_approximates`: Functions respect the order.
* `action_approximates`: Tokens that are no operands respect the order.
-/

namespace Worksheet

namespace Formula

/-- The value is the circular failure or the other value. -/
def Approximates (v w : Value) : Prop := v = .failure .circular ∨ v = w

namespace Approximates

/-- Every value approximates itself. -/
theorem refl (v : Value) : Approximates v v := .inr rfl

/-- The circular failure approximates every value. -/
theorem circular (w : Value) : Approximates (.failure .circular) w := .inl rfl

/-- A value that is not the circular failure approximates only itself. -/
theorem eq {v w : Value} (h : Approximates v w) (hv : v ≠ .failure .circular) : v = w := by
  rcases h with h | h
  · exact absurd h hv
  · exact h

end Approximates

/-! ## Operators -/

/-- A failure on the left is the result. -/
theorem binary_failure (op : Operator) (e : Failure) (b : Value) :
    binary op (.failure e) b = .failure e := by
  cases op <;> rfl

/-- A failure on the right is the result, unless there is one on the left. -/
theorem binary_failure_right (op : Operator) {a : Value} (ha : a.isFailure = false) (e : Failure) :
    binary op a (.failure e) = .failure e := by
  cases a with
  | failure e' => exact absurd ha (by simp [Value.isFailure])
  | _ => cases op <;> rfl

/-- A value is a failure or not, and a failure is shown as one. -/
theorem isFailure_cases (v : Value) : (∃ e, v = .failure e) ∨ v.isFailure = false := by
  cases v with
  | failure e => exact .inl ⟨e, rfl⟩
  | _ => exact .inr rfl

/-- Operators respect the order: the left side decides before the right one is
    looked at. -/
theorem binary_approximates (op : Operator) {a a' b b' : Value} (ha : Approximates a a')
    (hb : Approximates b b') : Approximates (binary op a b) (binary op a' b') := by
  rcases ha with rfl | rfl
  · rw [binary_failure]
    exact .circular _
  · rcases hb with rfl | rfl
    · rcases isFailure_cases a with ⟨e, rfl⟩ | ha
      · rw [binary_failure, binary_failure]
        exact .refl _
      · rw [binary_failure_right op ha]
        exact .circular _
    · exact .refl _

/-- A minus sign leaves failures alone, so it respects the order. -/
theorem negate_approximates {v w : Value} (h : Approximates v w) :
    Approximates (negate v) (negate w) := by
  rcases h with rfl | rfl
  · exact .circular _
  · exact .refl _

/-- A sign respects the order. -/
theorem signed_approximates (negative : Bool) {v w : Value} (h : Approximates v w) :
    Approximates (signed negative v) (signed negative w) := by
  cases negative with
  | false => exact h
  | true => exact negate_approximates h

/-! ## Arguments -/

/-- Functions over numbers meet a circular failure first, or their arguments
    count as the same numbers. -/
theorem numbers_approximates {vs ws : List Value} (h : List.Forall₂ Approximates vs ws) :
    numbers vs = .error .circular ∨ numbers vs = numbers ws := by
  induction h with
  | nil => exact .inr rfl
  | cons hvw _ ih =>
    rcases hvw with rfl | rfl
    · exact .inl rfl
    · unfold numbers
      rcases ih with ih | ih <;> rw [ih]
      · split
        · exact .inr rfl
        · exact .inl rfl
      · exact .inr rfl

/-- Functions over conditions and texts meet a circular failure first, or they
    meet the same failure first, or their arguments are the same. -/
theorem firstFailure?_approximates {vs ws : List Value} (h : List.Forall₂ Approximates vs ws) :
    firstFailure? vs = some (.failure .circular) ∨
      (∃ v, firstFailure? vs = some v ∧ firstFailure? ws = some v) ∨ vs = ws := by
  induction h with
  | nil => exact .inr (.inr rfl)
  | @cons v w vs ws hvw _ ih =>
    rcases hvw with rfl | rfl
    · exact .inl rfl
    · unfold firstFailure? at ih ⊢
      rcases isFailure_cases v with ⟨e, rfl⟩ | hv
      · exact .inr (.inl ⟨.failure e, rfl, rfl⟩)
      · rw [List.find?_cons_of_neg (by simp [hv]), List.find?_cons_of_neg (by simp [hv])]
        rcases ih with ih | ih | rfl
        · exact .inl ih
        · exact .inr (.inl ih)
        · exact .inr (.inr rfl)

/-! ## Functions -/

/-- Sums respect the order. -/
theorem sumOf_approximates {vs ws : List Value} (h : List.Forall₂ Approximates vs ws) :
    Approximates (sumOf vs) (sumOf ws) := by
  have hfold (acc acc' : Value) (hacc : Approximates acc acc') :
      Approximates (vs.foldl (arithmetic .add) acc) (ws.foldl (arithmetic .add) acc') := by
    induction h generalizing acc acc' with
    | nil => exact hacc
    | cons hvw _ ih => exact ih _ _ (binary_approximates .add hacc hvw)
  exact hfold _ _ (.refl _)

/-- A function that looks at the numbers only, or fails with the failure met,
    respects the order. -/
theorem ofNumbers_approximates {vs ws : List Value} (h : List.Forall₂ Approximates vs ws)
    (f : List Float → Value) :
    Approximates (match numbers vs with | .ok xs => f xs | .error e => .failure e)
      (match numbers ws with | .ok xs => f xs | .error e => .failure e) := by
  rcases numbers_approximates h with h | h
  · rw [h]
    exact .circular _
  · rw [h]
    exact .refl _

/-- A function that fails with the first failure respects the order, whatever
    else it computes from its arguments. -/
theorem orFailure_approximates {vs ws : List Value} (h : List.Forall₂ Approximates vs ws)
    (f : List Value → Value) :
    Approximates ((firstFailure? vs).getD (f vs)) ((firstFailure? ws).getD (f ws)) := by
  rcases firstFailure?_approximates h with h | ⟨v, hv, hw⟩ | rfl
  · rw [h]
    exact .circular _
  · rw [hv, hw]
    exact .refl _
  · exact .refl _

/-- A choice looks at its condition first and then at one branch only. -/
theorem choose_approximates {c c' a a' b b' : Value} (hc : Approximates c c')
    (ha : Approximates a a') (hb : Approximates b b') :
    Approximates (condOf.choose c a b) (condOf.choose c' a' b') := by
  rcases hc with rfl | rfl
  · exact .circular _
  · unfold condOf.choose
    split
    · exact ha
    · exact hb
    · exact .refl _

/-- A choice between one or two values respects the order. -/
theorem condOf_approximates {vs ws : List Value} (h : List.Forall₂ Approximates vs ws) :
    Approximates (condOf vs) (condOf ws) := by
  cases h with
  | nil => exact .refl _
  | cons hc h =>
    cases h with
    | nil => exact .refl _
    | cons ha h =>
      cases h with
      | nil => exact choose_approximates hc ha (.refl _)
      | cons hb h =>
        cases h with
        | nil => exact choose_approximates hc ha hb
        | cons _ _ => exact .refl _

/-- The greatest and the least number depend on the numbers only. -/
theorem extremeOf_eq (pick : Float → Float → Float) (vs : List Value) :
    extremeOf pick vs = match numbers vs with
      | .ok xs => xs.head?.elim (.failure .value) fun x => .number (xs.tail.foldl pick x)
      | .error e => .failure e := by
  unfold extremeOf
  split <;> rename_i h <;> rw [h] <;> rfl

/-- Every function respects the order. -/
theorem apply_approximates (f : Function) {vs ws : List Value}
    (h : List.Forall₂ Approximates vs ws) : Approximates (f.apply vs) (f.apply ws) := by
  cases f with
  | sum => exact sumOf_approximates h
  | average =>
    cases hvw : h with
    | nil => exact .refl _
    | cons _ _ => exact ofNumbers_approximates h _
  | max =>
    simp only [Function.apply, extremeOf_eq]
    exact ofNumbers_approximates h _
  | min =>
    simp only [Function.apply, extremeOf_eq]
    exact ofNumbers_approximates h _
  | cond => exact condOf_approximates h
  | and =>
    cases hvw : h with
    | nil => exact .refl _
    | cons _ _ => exact orFailure_approximates h fun args => .boolean (args.all Value.isTruthy)
  | or =>
    cases hvw : h with
    | nil => exact .refl _
    | cons _ _ => exact orFailure_approximates h fun args => .boolean (args.any Value.isTruthy)
  | concat =>
    exact orFailure_approximates h fun args => .text (args.foldl (fun s v => s ++ v.toText) "")
  | md5 =>
    cases h with
    | nil => exact .refl _
    | cons hv h =>
      cases h with
      | nil =>
        rcases hv with rfl | rfl
        · exact .circular _
        · exact .refl _
      | cons _ _ =>
        -- More than one argument fails in the same way, whatever the arguments are.
        exact .inr (by simp [Function.apply, md5Of])

/-- Calls respect the order. -/
theorem callByName_approximates (name : String) {vs ws : List Value}
    (h : List.Forall₂ Approximates vs ws) :
    Approximates (callByName name vs) (callByName name ws) := by
  unfold callByName
  split
  · exact apply_approximates _ h
  · exact .refl _

/-! ## Tokens -/

/-- An operator finds enough values on one stack exactly when it does on the
    other. -/
theorem applyOp_approximates (op : Operator) {us vs : List Value}
    (h : List.Forall₂ Approximates us vs) :
    Option.Rel (List.Forall₂ Approximates) (applyOp op us) (applyOp op vs) := by
  cases h with
  | nil => exact .none
  | cons hb h =>
    cases h with
    | nil =>
      unfold applyOp
      by_cases hop : op = .sub
      · simp only [hop, if_true]
        exact .some (.cons (negate_approximates hb) .nil)
      · simp only [hop, if_false]
        exact .none
    | cons ha h => exact .some (.cons (binary_approximates op ha hb) h)

/-- A call finds enough values on one stack exactly when it does on the other. -/
theorem applyCall_approximates (name : String) (arity : Nat) {us vs : List Value}
    (h : List.Forall₂ Approximates us vs) :
    Option.Rel (List.Forall₂ Approximates) (applyCall name arity us) (applyCall name arity vs) := by
  unfold applyCall
  rw [h.length_eq]
  by_cases hlen : vs.length < arity
  · rw [if_pos hlen, if_pos hlen]
    exact .none
  · rw [if_neg hlen, if_neg hlen]
    have htake := List.forall₂_reverse_iff.2 (List.forall₂_take arity h)
    exact .some (.cons (callByName_approximates name htake) (List.forall₂_drop arity h))

/-- What a stack leaves at the end respects the order. -/
theorem stackValue_approximates {us vs : List Value} (h : List.Forall₂ Approximates us vs) :
    Approximates (stackValue us) (stackValue vs) := by
  cases h with
  | nil => exact .refl _
  | cons hv h =>
    cases h with
    | nil => exact hv
    | cons _ _ => exact .refl _

/-- A token that is no operand respects the order. -/
theorem action_approximates {t : Token} {act : List Value → Option (List Value)}
    (hact : t.action? = some act) {us vs : List Value} (h : List.Forall₂ Approximates us vs) :
    Option.Rel (List.Forall₂ Approximates) (act us) (act vs) := by
  cases t with
  | operand text => cases hact
  | quoted text =>
    cases hact
    exact .some (.cons (.refl _) h)
  | op o =>
    cases hact
    exact applyOp_approximates o h
  | func name arity | call name arity =>
    cases hact
    exact applyCall_approximates name arity h

end Formula

end Worksheet
