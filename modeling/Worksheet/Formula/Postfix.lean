import Worksheet.Address.Range
import Worksheet.Formula.Function

/-!
# Converting Formulas to Postfix Order

From the text of a formula to its tokens.

The text is read once from left to right, without cutting it into words
first. Characters of a number or a name gather in a run, which becomes an
operand when something ends it. Operators, parentheses and calls wait on a
stack until what follows binds less tightly. The state also remembers the
last character that was not a space, because it decides whether a minus is a
sign or an operator, and where the output stood when the first reference of a
range was put out, because the second one replaces both by all cells between.

A call counts its arguments while it is open. Commas, ranges and comparisons
inside it make the count part of the token.

Quoted text is a mode of the state, so a quote that is never closed simply
runs to the end.

A range is replaced by its cells if these are no more than a limit. They are
counted in sixty-four bits, and a range with more cells than that can be counted
as one of few. There is no room for the list of its cells then, and the formula
has no tokens.

## Main definitions

* `Pending`: What waits on the stack.
* `Converter`: The state of the conversion.
* `Converter.feed`: Reading one character, with one more to look at.
* `postfixOf`: The tokens of a formula.
* `postfixOf?`: The same, if its ranges can be listed.
-/

namespace Worksheet

namespace Formula

/-- What waits on the stack. -/
inductive Pending where
  | op (op : Operator)
  | paren
  /-- An open call: its name, its arguments so far, whether they are counted
      in the token, and the length of the output when it was opened. -/
  | call (name : String) (args : Nat) (counted : Bool) (mark : Nat)
  deriving DecidableEq, Repr

/-- The state of the conversion. -/
structure Converter where
  /-- The most cells that a range is replaced by. -/
  rangeLimit : Nat
  /-- The tokens put out, the last one first. -/
  output : List Token := []
  /-- What waits, the innermost first. -/
  stack : List Pending := []
  /-- The characters of an operand or a name, the last one first. -/
  run : List Char := []
  /-- The last character that was not a space. -/
  previous : Option Char := none
  /-- The length of the output before the first reference of an open range. -/
  rangeStart : Option Nat := none
  /-- The characters of an open quoted text, the last one first. -/
  quote : Option (List Char) := none
  /-- The ranges that were replaced by their cells, the last one first. -/
  ranges : List Range := []

namespace Converter

/-- Put out one token. -/
def put (s : Converter) (t : Token) : Converter :=
  { s with output := t :: s.output }

/-- Change the innermost call. Operators inside its parentheses are passed
    over, and a parenthesis inside them hides it. -/
def editCall (edit : Nat → Nat) : List Pending → List Pending
  | .op o :: ps => .op o :: editCall edit ps
  | .call name args _ mark :: ps => .call name (edit args) true mark :: ps
  | ps => ps

/-- The tokens that a range is replaced by, the last one first, and how many
    there are. -/
def rangeTokens (limit : Nat) (r : Range) : List Token × Nat :=
  if limit < r.count then ([.operand Failure.reference.sentinel], 1)
  else (r.cells.reverse.map fun c => .operand c.toText, r.count)

/-- Replace the two references at the end of the output by the cells between
    them, if the range was opened right before them. -/
def expandRange (start : Nat) (s : Converter) : Converter :=
  match s.output with
  | .operand b :: .operand a :: rest =>
    if rest.length = start then
      match CellRef.ofText? a, CellRef.ofText? b with
      | some a, some b =>
        let r := Range.between a b
        let (tokens, count) := rangeTokens s.rangeLimit r
        { s with output := tokens ++ rest
                 stack := editCall (fun args => args + (count - 1)) s.stack
                 ranges := r :: s.ranges }
      | _, _ => s
    else s
  | _ => s

/-- End the run, if there is one. -/
def flush (s : Converter) : Converter :=
  if s.run = [] then s
  else
    let s' := { s with run := [], rangeStart := none }.put (.operand (String.ofList s.run.reverse))
    match s.rangeStart with
    | some start => s'.expandRange start
    | none => s'

/-- Put out the waiting operators that bind at least as tightly. -/
def popTighter (op : Operator) : List Pending → List Token → List Pending × List Token
  | .op o :: ps, out =>
    if o.precedence < op.precedence then (.op o :: ps, out)
    else popTighter op ps (.op o :: out)
  | ps, out => (ps, out)

/-- An operator comes: the tighter ones before it go out, and it waits. -/
def pushOp (s : Converter) (op : Operator) : Converter :=
  let (stack, output) := popTighter op s.stack s.output
  { s with stack := .op op :: stack, output }

/-- Put out the waiting operators down to a parenthesis or a call. -/
def popOps : List Pending → List Token → List Pending × List Token
  | .op o :: ps, out => popOps ps (.op o :: out)
  | ps, out => (ps, out)

/-- The token of a call that is closed. -/
def callToken (name : String) (args : Nat) (counted : Bool) (mark : Nat) (output : List Token) :
    Token :=
  if counted then .call name args
  else if (Function.ofName? name).any Function.isUnary then .call name 1
  else .func name (if mark < output.length then 1 else 0)

/-- An opening parenthesis comes. After a run it opens a call; a minus sign
    in front of the run is turned into a product with minus one. -/
def openParen (s : Converter) : Converter :=
  match s.run.reverse with
  | [] => { s with stack := .paren :: s.stack }
  | '-' :: name =>
    let s := ({ s with run := [] }.put (.operand "-1")).pushOp .mul
    if name = [] then { s with stack := .paren :: s.stack }
    else { s with stack := .call (String.ofList name) 1 false s.output.length :: s.stack }
  | name =>
    { s with run := []
             stack := .call (String.ofList name) 1 false s.output.length :: s.stack }

/-- Put out what waits, up to and including a parenthesis or a call. -/
def closeFrame : List Pending → List Token → List Pending × List Token
  | .op o :: ps, out => closeFrame ps (.op o :: out)
  | .paren :: ps, out => (ps, out)
  | .call name args counted mark :: ps, out => (ps, callToken name args counted mark out :: out)
  | [], out => ([], out)

/-- A closing parenthesis comes. -/
def closeParen (s : Converter) : Converter :=
  let s := s.flush
  let (stack, output) := closeFrame s.stack s.output
  { s with stack, output, rangeStart := none }

/-- One more argument, for a call at the top of the stack. -/
def countArgument : List Pending → List Pending
  | .call name args _ mark :: ps => .call name (args + 1) true mark :: ps
  | ps => ps

/-- A comma comes. -/
def comma (s : Converter) : Converter :=
  let s := s.flush
  let (stack, output) := popOps s.stack s.output
  { s with stack := countArgument stack, output, rangeStart := none }

/-- A colon comes: it opens a range after an operand. -/
def colon (s : Converter) : Converter :=
  let s := s.flush
  match s.output with
  | .operand _ :: rest => { s with rangeStart := some rest.length }
  | _ => s

/-- A comparison comes. -/
def compareWith (s : Converter) (op : Operator) : Converter :=
  let s := s.flush.pushOp op
  { s with stack := editCall id s.stack }

/-- Does the last character leave an operand to be expected? -/
def expectsOperand (s : Converter) : Bool :=
  match s.previous with
  | none => true
  | some c => ['+', '-', '*', '/', ',', '(', '&', '=', '<', '>'].contains c

/-- The operator of a single character. -/
def operatorOf? (c : Char) : Option Operator :=
  if c = '+' then some .add
  else if c = '-' then some .sub
  else if c = '*' then some .mul
  else if c = '/' then some .div
  else if c = '&' then some .concat
  else none

/-- Read a character that is neither quoted nor part of a comparison. -/
def feed (s : Converter) (c : Char) : Converter :=
  if c = ' ' then s
  else if c = '"' then { s.flush with quote := some [], previous := some c }
  else if Text.isLetter c || Text.isDigit c || c == '.' then
    { s with run := Text.upper c :: s.run, previous := some c }
  -- Two signs in a row cancel.
  else if c = '-' ∧ s.run = ['-'] then { s with run := [], previous := some c }
  -- Where an operand is expected, a minus is its sign and a plus says nothing.
  else if c = '-' ∧ s.run = [] ∧ s.expectsOperand then { s with run := ['-'], previous := some c }
  -- Right after a concatenation, an operator is text.
  else if (c = '+' ∨ c = '*' ∨ c = '/') ∧ s.previous = some '&' then
    { s.flush.put (.quoted (String.singleton c)) with previous := some '"' }
  else if c = '+' ∧ s.run = [] ∧ s.expectsOperand then s
  else match operatorOf? c with
    | some op => { s.flush.pushOp op with previous := some c }
    | none =>
      if c = '(' then { s.openParen with previous := some c }
      else if c = ')' then { s.closeParen with previous := some c }
      else if c = ',' then { s.comma with previous := some c }
      else if c = ':' then { s.colon with previous := some c }
      else { s with run := c :: s.run, previous := some c }

/-- Read a character of a quoted text. -/
def feedQuoted (s : Converter) (body : List Char) (c : Char) : Converter :=
  if c = '"' then { s.put (.quoted (String.ofList body.reverse)) with quote := none }
  else { s with quote := some (c :: body) }

/-- Read a text. A comparison of two characters takes both. -/
def read (s : Converter) : List Char → Converter
  | [] => s
  | c :: cs =>
    match s.quote with
    | some body => read (s.feedQuoted body c) cs
    | none =>
      let comparing (op : Operator) : Converter := { s.compareWith op with previous := some c }
      match c, cs with
      | '<', '=' :: rest => read (comparing .le) rest
      | '<', '>' :: rest => read (comparing .ne) rest
      | '>', '=' :: rest => read (comparing .ge) rest
      | '=', '=' :: rest => read (comparing .eq) rest
      | '<', rest => read (comparing .lt) rest
      | '>', rest => read (comparing .gt) rest
      | '=', rest => read (comparing .eq) rest
      | _, rest => read (s.feed c) rest

/-- Put out everything that still waits. -/
def drain : List Pending → List Token → List Token
  | [], out => out
  | .op o :: ps, out => drain ps (.op o :: out)
  | .paren :: ps, out => drain ps out
  | .call name args counted mark :: ps, out =>
    drain ps (callToken name args counted mark out :: out)

/-- The tokens in order, once the text has ended. -/
def finish (s : Converter) : List Token :=
  let s := match s.quote with
    | some body => s.put (.quoted (String.ofList body.reverse))
    | none => s.flush
  (drain s.stack s.output).reverse

end Converter

/-- The most cells that a range in a formula is replaced by, unless a sheet
    says otherwise. -/
def defaultRangeLimit : Nat := 100000

/-- The tokens of a formula, which is given without its equals sign. -/
def postfixOf (rangeLimit : Nat) (body : List Char) : List Token :=
  let start : Converter := { rangeLimit }
  (start.read body).finish

/-! ## Room for the cells of a range -/

/-- The ranges of a formula that are replaced, the last one first. -/
def expandedRanges (rangeLimit : Nat) (body : List Char) : List Range :=
  let start : Converter := { rangeLimit }
  let s := start.read body
  if s.quote = none then s.flush.ranges else s.ranges

/-- A list of cells takes sixteen bytes for each of them, and no list has more than
    2 ^ 63 bytes. -/
def listLimit : Nat := Address.reach / 16

/-- Is there an end to replacing a range? Either its cells are counted as too many,
    or there is room to list them. -/
def IsReplaced (rangeLimit : Nat) (r : Range) : Prop :=
  rangeLimit < r.tally ∨ r.count < listLimit

instance (rangeLimit : Nat) (r : Range) : Decidable (IsReplaced rangeLimit r) :=
  inferInstanceAs (Decidable (_ ∨ _))

/-- The tokens of a formula, or `none` when there is no end to replacing a range. -/
def postfixOf? (rangeLimit : Nat) (body : List Char) : Option (List Token) :=
  if ∀ r ∈ expandedRanges rangeLimit body, IsReplaced rangeLimit r then
    some (postfixOf rangeLimit body)
  else none

/-- The tokens of a formula that has any. -/
theorem eq_postfixOf {rangeLimit : Nat} {body : List Char} {tokens : List Token}
    (h : postfixOf? rangeLimit body = some tokens) : tokens = postfixOf rangeLimit body := by
  unfold postfixOf? at h
  split at h
  · exact (Option.some.inj h).symm
  · cases h

end Formula

end Worksheet
