import Worksheet.Proofs.Formula.Operand

/-!
# Expression Trees

Formulas as trees, with the three things a tree stands for: the text that is
typed, the tokens in postfix order, and a value.

None of the three looks at the converter. The text puts parentheses exactly
where the binding of the operators asks for them, which is why it is given a
level: an operand on the left may bind as loosely as its operator, one on the
right has to bind more tightly, so that operators of one precedence group to
the left. The tokens are the post-order of the tree. The value is compositional:
an operator of the values of its operands, a function of the values of its
arguments, with the scope handed from left to right because resolving a
reference may settle cells that a later one needs.

A leaf carries the proof that its text is what it claims to be, so no tree has
to be excluded later on. A call without arguments is a constructor of its own,
because a function of exactly one value cannot be called that way.

## Main definitions

* `Numeral`, `Reference`, `Name`: The texts that leaves and calls are made of.
* `Expr`, `Args`, `Arg`: The trees.
* `Expr.text`: The text of a tree.
* `Expr.tokens`: The post-order of a tree.
* `Expr.ranges`: The ranges in a tree.
* `Expr.value`: The value of a tree.
* `rangeSum`: The sum of a range, as a tree.
-/

namespace Worksheet

namespace Formula

/-- A character without a meaning of its own in a formula, which gathers with
    its neighbours in a number or a name. -/
def isGathered (c : Char) : Bool :=
  !([' ', '"', '+', '-', '*', '/', '&', '=', '<', '>', '(', ')', ',', ':'].contains c)

/-- A number without a sign: digits, and perhaps a point with digits after it. -/
structure Numeral where
  whole : List Char
  fraction : Option (List Char)
  whole_ne_nil : whole ≠ []
  whole_digits : ∀ c ∈ whole, Text.isDigit c = true
  fraction_digits : ∀ ds ∈ fraction, ∀ c ∈ ds, Text.isDigit c = true

namespace Numeral

/-- The digits after the point. -/
def places (n : Numeral) : List Char := n.fraction.getD []

/-- The number as it is typed. -/
def chars (n : Numeral) : List Char :=
  match n.fraction with
  | none => n.whole
  | some ds => n.whole ++ '.' :: ds

/-- The double nearest to the number; one that is too large for a double is no
    number at all. -/
def value (n : Numeral) : Value :=
  let x := Number.nearest (Nat.ofDigitChars 10 (n.whole ++ n.places) 0) (-(n.places.length : Int))
  if x.isFinite then .number x else .failure .value

end Numeral

/-- A cell as it is typed, in any case and with any zeros in front of the row. -/
structure Reference where
  chars : List Char
  cell : CellRef
  spelled : CellRef.ofChars? chars = some cell

/-- The name of a function as it is typed. -/
structure Name where
  chars : List Char
  ne_nil : chars ≠ []
  gathered : ∀ c ∈ chars, isGathered c = true

namespace Name

/-- The name that a token has. -/
def text (n : Name) : String := String.ofList (n.chars.map Text.upper)

/-- Does the name call a function that always takes exactly one value? -/
def isUnary (n : Name) : Bool := (Function.ofName? n.text).any Function.isUnary

end Name

/-- A leaf of a formula. A minus sign can stand in front of a number or a cell. -/
inductive Atom where
  | number (negative : Bool) (n : Numeral)
  | cell (negative : Bool) (r : Reference)
  | truth (b : Bool)
  | quoted (body : List Char) (unquoted : '"' ∉ body)

mutual

/-- A formula. -/
inductive Expr where
  | atom (a : Atom)
  | binary (op : Operator) (a b : Expr)
  /-- A call without arguments. -/
  | callEmpty (name : Name) (many : name.isUnary = false)
  | call (name : Name) (args : Args)

/-- The arguments of a call, of which there is at least one. -/
inductive Args where
  | last (a : Arg)
  | more (a : Arg) (rest : Args)

/-- One argument: a formula, or a range between two cells. -/
inductive Arg where
  | value (e : Expr)
  | range (a b : Reference)

end

/-! ## Text -/

/-- A minus sign, or nothing. -/
def signChars (negative : Bool) : List Char := if negative then ['-'] else []

/-- A leaf as it is typed. -/
def Atom.text : Atom → List Char
  | .number negative n => signChars negative ++ n.chars
  | .cell negative r => signChars negative ++ r.chars
  | .truth b => if b then ['T', 'R', 'U', 'E'] else ['F', 'A', 'L', 'S', 'E']
  | .quoted body _ => '"' :: body ++ ['"']

mutual

/-- A formula as it is typed where only operators of at least a precedence may
    stand without parentheses. -/
def Expr.text (level : Nat) : Expr → List Char
  | .atom a => a.text
  | .binary op a b =>
    let body := a.text op.precedence ++ (op.symbol.toList ++ b.text (op.precedence + 1))
    if op.precedence < level then '(' :: (body ++ [')']) else body
  | .callEmpty name _ => name.chars ++ ['(', ')']
  | .call name args => name.chars ++ '(' :: (args.text ++ [')'])

/-- Arguments as they are typed, with commas between them. -/
def Args.text : Args → List Char
  | .last a => a.text
  | .more a rest => a.text ++ ',' :: rest.text

/-- An argument as it is typed. -/
def Arg.text : Arg → List Char
  | .value e => e.text 0
  | .range a b => a.chars ++ ':' :: b.chars

end

/-! ## Tokens -/

/-- A token whose arguments are counted, in place of one that took what its
    parentheses held. -/
def Token.counted : Token → Token
  | .func name arity => .call name arity
  | t => t

/-- The cells that a range in a formula stands for, or `none` when there are
    more of them than a limit. -/
def rangeCells? (limit : Nat) (r : Range) : Option (List CellRef) :=
  if limit < r.count then none else some r.cells

/-- The token of a leaf. -/
def Atom.token : Atom → Token
  | .number negative n => .operand (String.ofList (signChars negative ++ n.chars))
  | .cell negative r => .operand (String.ofList (signChars negative ++ r.chars.map Text.upper))
  | .truth b => .operand (if b then "TRUE" else "FALSE")
  | .quoted body _ => .quoted (String.ofList body)

/-- The tokens of a range: its cells row by row, or one lost reference. -/
def rangeOperands (limit : Nat) (r : Range) : List Token :=
  match rangeCells? limit r with
  | none => [.operand Failure.reference.sentinel]
  | some cells => cells.map fun c => .operand c.toText

mutual

/-- The number of operands that an argument puts out. -/
def Arg.count (limit : Nat) : Arg → Nat
  | .value _ => 1
  | .range a b => (rangeOperands limit (Range.between a.cell b.cell)).length

/-- The number of operands that arguments put out. -/
def Args.count (limit : Nat) : Args → Nat
  | .last a => a.count limit
  | .more a rest => a.count limit + rest.count limit

end

mutual

/-- The post-order of a formula, with every call counting its arguments. -/
def Expr.tokens (limit : Nat) : Expr → List Token
  | .atom a => [a.token]
  | .binary op a b => a.tokens limit ++ (b.tokens limit ++ [.op op])
  | .callEmpty name _ => [.call name.text 0]
  | .call name args => args.tokens limit ++ [.call name.text (args.count limit)]

/-- The tokens of arguments. -/
def Args.tokens (limit : Nat) : Args → List Token
  | .last a => a.tokens limit
  | .more a rest => a.tokens limit ++ rest.tokens limit

/-- The tokens of an argument. -/
def Arg.tokens (limit : Nat) : Arg → List Token
  | .value e => e.tokens limit
  | .range a b => rangeOperands limit (Range.between a.cell b.cell)

end

/-! ## Ranges -/

mutual

/-- The ranges of a formula, from left to right. -/
def Expr.ranges : Expr → List Range
  | .atom _ => []
  | .binary _ a b => a.ranges ++ b.ranges
  | .callEmpty _ _ => []
  | .call _ args => args.ranges

/-- The ranges of arguments. -/
def Args.ranges : Args → List Range
  | .last a => a.ranges
  | .more a rest => a.ranges ++ rest.ranges

/-- The ranges of an argument. -/
def Arg.ranges : Arg → List Range
  | .value e => e.ranges
  | .range a b => [Range.between a.cell b.cell]

end

/-! ## Values -/

/-- The value of a leaf. -/
def Atom.value (resolve : Resolver) (s : Scope) : Atom → Value × Scope
  | .number negative n => (signed negative n.value, s)
  | .cell negative r => let (v, s) := resolve r.cell s; (signed negative v, s)
  | .truth b => (.boolean b, s)
  | .quoted body _ => (.text (String.ofList body), s)

/-- The values of cells, resolved one after the other. -/
def cellValues (resolve : Resolver) : List CellRef → Scope → List Value × Scope
  | [], s => ([], s)
  | c :: cs, s =>
    let (v, s) := resolve c s
    let (vs, s) := cellValues resolve cs s
    (v :: vs, s)

/-- The values that a range stands for. -/
def rangeValues (limit : Nat) (resolve : Resolver) (r : Range) (s : Scope) : List Value × Scope :=
  match rangeCells? limit r with
  | none => ([.failure .reference], s)
  | some cells => cellValues resolve cells s

mutual

/-- The value of a formula. -/
def Expr.value (limit : Nat) (resolve : Resolver) : Expr → Scope → Value × Scope
  | .atom a, s => a.value resolve s
  | .binary op a b, s =>
    let (x, s) := a.value limit resolve s
    let (y, s) := b.value limit resolve s
    (Formula.binary op x y, s)
  | .callEmpty name _, s => (callByName name.text [], s)
  | .call name args, s =>
    let (vs, s) := args.values limit resolve s
    (callByName name.text vs, s)

/-- The values of arguments. -/
def Args.values (limit : Nat) (resolve : Resolver) : Args → Scope → List Value × Scope
  | .last a, s => a.values limit resolve s
  | .more a rest, s =>
    let (vs, s) := a.values limit resolve s
    let (ws, s) := rest.values limit resolve s
    (vs ++ ws, s)

/-- The values of an argument. -/
def Arg.values (limit : Nat) (resolve : Resolver) : Arg → Scope → List Value × Scope
  | .value e, s => let (v, s) := e.value limit resolve s; ([v], s)
  | .range a b, s => rangeValues limit resolve (Range.between a.cell b.cell) s

end

/-! ## Sums -/

/-- The name of the sum. -/
def sumName : Name := ⟨['S', 'U', 'M'], by simp, by simp [isGathered]⟩

/-- The sum of a range. -/
def rangeSum (a b : Reference) : Expr := .call sumName (.last (.range a b))

theorem text_rangeSum (a b : Reference) :
    (rangeSum a b).text 0 = ['S', 'U', 'M', '('] ++ (a.chars ++ ':' :: (b.chars ++ [')'])) := by
  rw [rangeSum, Expr.text, Args.text, Arg.text, List.append_assoc]
  rfl

end Formula

end Worksheet
