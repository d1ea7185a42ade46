import Worksheet.Formula.Postfix
import Std.Data.HashMap

/-!
# Evaluating Formulas

Running the tokens of a formula, and following its references.

Tokens run on a stack of values. A reference is resolved by looking up the
text of its cell and evaluating that in turn, so evaluation is a recursion
through the sheet. Three things keep it in bounds. A cell that is being
evaluated further up is not entered again, since that would never end. The
chain of cells being evaluated has a greatest length. And the number of
lookups has a limit, after which no further cell is resolved.

A value is kept once it is known, so a cell that is referred to many times is
looked up once. The one value that is not kept is the circular failure: it
may hold only for the chain that met it, and not for the next one.

The recursion is on a bound that starts one above the greatest length of a
chain. The chain grows by one with each step down, so the length check always
stops the recursion first.

## Main definitions

* `Limits`: The three limits.
* `Scope`: What one evaluation knows.
* `run`: Tokens on a stack, given how references are resolved.
* `resolve`: The value of a cell that is referred to.
* `render`, `evaluateCell`, `evaluateTokens`: Whole evaluations.
* `render?`, `evaluateCell?`, `run?`: The same, if every text that is read can be converted.
-/

namespace Worksheet

namespace Formula

/-- The text of every cell. -/
abbrev Lookup := CellRef → String

/-- What bounds an evaluation. -/
structure Limits where
  /-- The greatest number of cells being evaluated at once. -/
  depth : Nat := 256
  /-- The most cells that a range is replaced by. -/
  rangeCells : Nat := defaultRangeLimit
  /-- The most cells that are looked up. -/
  resolutions : Nat := 100000
  deriving DecidableEq, Repr

/-- What one evaluation knows. -/
structure Scope where
  /-- The cells being evaluated, the innermost first. -/
  active : List CellRef := []
  /-- The values that are known. -/
  settled : Std.HashMap CellRef Value := ∅
  /-- The cells that were looked up, in order. -/
  resolved : Array CellRef := #[]
  /-- The cells that were not looked up because a limit was reached, the last
      one first. -/
  refused : List CellRef := []

/-- How a reference is resolved. -/
abbrev Resolver := CellRef → Scope → Value × Scope

/-- The value of an operand without a minus sign in front. -/
def operandValue (resolve : Resolver) (body : String) (s : Scope) : Value × Scope :=
  match body.toList.head? with
  | some c =>
    if Text.isDigit c || c == '.' then
      match Number.ofText? body with
      | some x => (.number x, s)
      | none => (.failure .value, s)
    else if body = "TRUE" then (.boolean true, s)
    else if body = "FALSE" then (.boolean false, s)
    else match Failure.ofSentinel? body with
      | some e => (.failure e, s)
      | none => match CellRef.ofText? body with
        | some cell => resolve cell s
        | none => (.failure .name, s)
  | none => (.failure .name, s)

/-- The value of an operand. -/
def operand (resolve : Resolver) (text : String) (s : Scope) : Value × Scope :=
  match text.toList with
  | '-' :: body =>
    let (v, s) := operandValue resolve (String.ofList body) s
    (negate v, s)
  | _ => operandValue resolve text s

/-- Apply an operator to the top of a stack. A difference with nothing to
    subtract from negates. -/
def applyOp (op : Operator) : List Value → Option (List Value)
  | b :: a :: stack => some (binary op a b :: stack)
  | [b] => if op = .sub then some [negate b] else none
  | [] => none

/-- Apply a function to the top of a stack. -/
def applyCall (name : String) (arity : Nat) (stack : List Value) : Option (List Value) :=
  if stack.length < arity then none
  else some (callByName name (stack.take arity).reverse :: stack.drop arity)

/-- The value that a stack leaves at the end. A formula without any value is
    the empty text, and one that leaves several is malformed. -/
def stackValue : List Value → Value
  | [] => .text ""
  | [v] => v
  | _ => .failure .value

/-- Run tokens on a stack of values, the top first. A token that finds too
    few values ends the run. -/
def run (resolve : Resolver) : List Token → List Value → Scope → Value × Scope
  | [], stack, s => (stackValue stack, s)
  | .operand text :: ts, stack, s =>
    let (v, s) := operand resolve text s
    run resolve ts (v :: stack) s
  | .quoted text :: ts, stack, s => run resolve ts (.text text :: stack) s
  | .op op :: ts, stack, s => match applyOp op stack with
    | some stack => run resolve ts stack s
    | none => (.failure .value, s)
  | .func name arity :: ts, stack, s => match applyCall name arity stack with
    | some stack => run resolve ts stack s
    | none => (.failure .value, s)
  | .call name arity :: ts, stack, s => match applyCall name arity stack with
    | some stack => run resolve ts stack s
    | none => (.failure .value, s)

/-- The value of a cell's text: of a formula what it evaluates to, of any
    other text the number or text it is. -/
def renderWith (rangeCells : Nat) (resolve : Resolver) (text : String) (s : Scope) :
    Value × Scope :=
  match text.toList with
  | '=' :: body => run resolve (postfixOf rangeCells body) [] s
  | _ => (Value.ofText text, s)

/-- The value of a cell that is referred to. The first argument bounds the
    recursion. -/
def resolve (limits : Limits) (lookup : Lookup) : Nat → Resolver
  | 0, _, s => (.failure .circular, s)
  | fuel + 1, cell, s =>
    if s.active.contains cell then (.failure .circular, s)
    else match s.settled[cell]? with
      | some v => (v, s)
      | none =>
        if limits.depth ≤ s.active.length ∨ limits.resolutions ≤ s.resolved.size then
          (.failure .circular, { s with refused := cell :: s.refused })
        else
          let entered :=
            { s with active := cell :: s.active, resolved := s.resolved.push cell }
          let (v, s) :=
            renderWith limits.rangeCells (resolve limits lookup fuel) (lookup cell) entered
          let left := { s with active := s.active.erase cell }
          -- A circular failure may be the fault of the chain, so it is not kept.
          if v = .failure .circular then (v, left)
          else (v, { left with settled := left.settled.insert cell v })

/-- The resolver of a whole evaluation. -/
def resolver (limits : Limits) (lookup : Lookup) : Resolver :=
  resolve limits lookup (limits.depth + 1)

/-- Run tokens from scratch. -/
def evaluateTokens (limits : Limits) (lookup : Lookup) (tokens : List Token) : Value × Scope :=
  run (resolver limits lookup) tokens [] {}

/-- The value of a text that stands in no particular cell. -/
def render (limits : Limits) (lookup : Lookup) (text : String) : Value × Scope :=
  renderWith limits.rangeCells (resolver limits lookup) text {}

/-- The value of a cell, which counts as being evaluated from the start. -/
def evaluateCell (limits : Limits) (lookup : Lookup) (cell : CellRef) : Value × Scope :=
  renderWith limits.rangeCells (resolver limits lookup) (lookup cell) { active := [cell] }

/-! ## Answers -/

/-- Is there an end to converting a text, if it is a formula? -/
def IsConverted (rangeCells : Nat) (text : String) : Prop :=
  match text.toList with
  | '=' :: body => (postfixOf? rangeCells body).isSome = true
  | _ => True

instance (rangeCells : Nat) (text : String) : Decidable (IsConverted rangeCells text) := by
  unfold IsConverted
  split <;> infer_instance

/-- The result of an evaluation that began with some texts in a scope, or `none` when there
    was no end to converting one of these or of the cells that it looked up. -/
def answer? (rangeCells : Nat) (lookup : Lookup) (texts : List String) (s : Scope)
    (r : Value × Scope) : Option (Value × Scope) :=
  let looked := r.2.resolved.toList.drop s.resolved.size
  if ∀ text ∈ texts ++ looked.map lookup, IsConverted rangeCells text then some r else none

/-- What comes of evaluating a text. -/
def render? (limits : Limits) (lookup : Lookup) (text : String) : Option (Value × Scope) :=
  answer? limits.rangeCells lookup [text] {} (render limits lookup text)

/-- What comes of evaluating a cell. -/
def evaluateCell? (limits : Limits) (lookup : Lookup) (cell : CellRef) : Option (Value × Scope) :=
  answer? limits.rangeCells lookup [lookup cell] { active := [cell] }
    (evaluateCell limits lookup cell)

/-- What comes of running tokens in a scope. -/
def run? (limits : Limits) (lookup : Lookup) (ts : List Token) (stack : List Value)
    (s : Scope) : Option (Value × Scope) :=
  answer? limits.rangeCells lookup [] s (run (resolver limits lookup) ts stack s)

end Formula

end Worksheet
