import Worksheet.Proofs.Formula.Postorder
import Worksheet.Proofs.Number.Sign

/-!
# Signs in Front of Parentheses and Calls

What a minus sign does that stands behind an operator and in front of a
parenthesis or a call.

The sign of a number or of a cell is part of the operand. In front of a
parenthesis there is no operand yet that it could be part of, and the converter
puts out the operand `-1` in its place and lets a multiplication wait for the
factor. That multiplication goes over the stack like any other, so it puts out
first what binds as tightly and already waits. Behind a sum, a joining or a
comparison nothing does, and the factor is multiplied before the operator sees
it. Behind a product or a quotient that operator does, so it takes `-1` for its
right operand and the factor is multiplied with the result.

The two readings agree behind a product of numbers, because a factor of minus
one is exact. They do not agree behind a quotient: the factor ends up above the
line.

## Main definitions

* `Factor`: A formula in parentheses, or a call.
* `negated`, `multiplied`: An operator and a factor with a sign, and with the
  product that the sign stands for.
* `grouped`: The tree that a signed factor is read as.
* `Converter.multiplying`: The state after the sign.

## Theorems

* `reads_negated`: The sign, and the factor behind it, above what waits.
* `postfixOf_negated`, `postfixOf_multiplied`: The tokens of both texts.
* `binary_mul_assoc`: Products with minus one in the middle.
* `renderWith_multiplied`: The product that the sign stands for negates.
* `renderWith_negated`: When the sign is that product, and what it is behind a
  quotient.
-/

namespace Worksheet

namespace Formula

/-! ## Factors -/

/-- What a sign can stand in front of without being part of it. -/
inductive Factor where
  | paren (e : Expr)
  | callEmpty (name : Name) (many : name.isUnary = false)
  | call (name : Name) (args : Args)

namespace Factor

/-- The name in front of the parenthesis, if there is one. -/
def head : Factor → List Char
  | .paren _ => []
  | .callEmpty name _ => name.chars
  | .call name _ => name.chars

/-- What stands between the parentheses. -/
def inside : Factor → List Char
  | .paren e => e.text 0
  | .callEmpty _ _ => []
  | .call _ args => args.text

/-- The factor as it is typed. -/
def text (f : Factor) : List Char := f.head ++ '(' :: (f.inside ++ [')'])

/-- The factor as a formula. -/
def expr : Factor → Expr
  | .paren e => e
  | .callEmpty name many => .callEmpty name many
  | .call name args => .call name args

theorem gathered_head (f : Factor) : ∀ c ∈ f.head, isGathered c = true := by
  cases f with
  | paren e => simp [head]
  | callEmpty name many => exact name.gathered
  | call name args => exact name.gathered

/-- No factor begins like the second half of a comparison. -/
theorem starts_text (f : Factor) : Starts f.text := by
  cases f with
  | paren e => exact ⟨'(', _, rfl, by decide, by decide⟩
  | callEmpty name many => exact (starts_gathered name.ne_nil name.gathered).append _
  | call name args => exact (starts_gathered name.ne_nil name.gathered).append _

end Factor

/-- Nothing binds more tightly than a product. -/
theorem Operator.precedence_le (op : Operator) : op.precedence ≤ Operator.precedence .mul := by
  cases op <;> decide

/-- A number of one digit. -/
def Numeral.single (c : Char) (h : Text.isDigit c = true) : Numeral :=
  ⟨[c], none, by simp, by simpa, by simp⟩

/-- The number that a sign stands for as a factor. -/
def minusOne : Expr := .atom (.number true (.single '1' rfl))

theorem tokens_minusOne (limit : Nat) : minusOne.tokens limit = [.operand "-1"] := by
  rw [minusOne, Expr.tokens]
  rfl

/-- An operator, and a factor with a minus sign. -/
def negated (op : Operator) (a : Expr) (f : Factor) : List Char :=
  a.text op.precedence ++ (op.symbol.toList ++ '-' :: f.text)

/-- An operator, and a factor that is multiplied with minus one in parentheses. -/
def multiplied (op : Operator) (a : Expr) (f : Factor) : List Char :=
  a.text op.precedence ++ (op.symbol.toList ++ '(' :: ('-' :: '1' :: '*' :: f.text ++ [')']))

/-- The tree that a signed factor is read as: the factor is multiplied first, unless
    the operator binds as tightly and takes the minus one. -/
def grouped (op : Operator) (a : Expr) (f : Factor) : Expr :=
  if op.precedence < Operator.precedence .mul then .binary op a (.binary .mul minusOne f.expr)
  else .binary .mul (.binary op a minusOne) f.expr

/-! ## Reading a signed factor -/

namespace Converter

variable {limit : Nat}

/-- Behind its opening parenthesis, every factor closes. -/
theorem closes_factor (f : Factor) :
    Closes limit f.head f.inside (f.expr.tokens limit) f.expr.ranges := by
  cases f with
  | paren e => exact closes_paren (converts_text limit 0 e)
  | callEmpty name many =>
    rw [Factor.expr, Expr.tokens, Expr.ranges]
    exact closes_callEmpty limit name many
  | call name args =>
    rw [Factor.expr, Expr.tokens, Expr.ranges]
    exact closes_call name (convertsArgs args)

/-- The state after a sign in front of a factor: `-1` is put out, and behind it the
    operators that bind as tightly as the multiplication, which waits. -/
def multiplying (s : Converter) (ops : List Operator) (kept : List Pending) : Converter :=
  { s with output := (ops.map Token.op).reverse ++ .operand "-1" :: s.output
           stack := .op .mul :: kept }

theorem factorSign_ops {s : Converter} {ops : List Operator} {kept : List Pending}
    (hstack : s.stack = ops.map .op ++ kept)
    (hops : ∀ o ∈ ops, Operator.precedence .mul ≤ o.precedence)
    (hkept : StopsBelow (Operator.precedence .mul) kept) :
    s.factorSign true = s.multiplying ops kept := by
  simp only [factorSign, if_true, pushOp, put, hstack, popTighter_ops _ hops hkept, multiplying]

/-- The sign, and the factor behind it: the operators that bind as tightly go out
    behind the `-1`, and the multiplication waits for the factor to be put out. -/
theorem reads_negated (f : Factor) {s : Converter} (hlimit : s.rangeLimit = limit)
    (h : AtOperand s) {ops : List Operator} {kept : List Pending}
    (hstack : s.stack = ops.map .op ++ kept)
    (hops : ∀ o ∈ ops, Operator.precedence .mul ≤ o.precedence)
    (hkept : StopsBelow (Operator.precedence .mul) kept) :
    ∃ (s' : Converter) (ts : List Token), Reads s ('-' :: f.text) s' ∧
      ts.map Token.counted = f.expr.tokens limit ∧ AfterOperand s' ∧ s'.rangeLimit = limit ∧
        s'.run = [] ∧ s'.ranges = f.expr.ranges.reverse ++ s.ranges ∧
          s'.stack = .op .mul :: kept ∧
          s'.output = ts.reverse ++ ((ops.map Token.op).reverse ++ .operand "-1" :: s.output) := by
  have hopen := reads_frame h true f.gathered_head
  rw [factorSign_ops hstack hops hkept] at hopen
  rcases closes_factor f { (s.multiplying ops kept).openFrame (f.head.map Text.upper) with
      previous := some '(' } (.op .mul :: kept) hlimit ⟨h.quote, h.run, h.rangeStart, rfl⟩ rfl
    with ⟨s', ts, hreads, hrest⟩
  refine ⟨s', ts, ?_, hrest⟩
  simpa [Factor.text, signChars] using hopen.append hreads

/-- Where nothing that binds as tightly waits, a signed factor is a product with
    minus one. -/
theorem converts_negated (f : Factor) : Converts limit (Operator.precedence .mul) ('-' :: f.text)
    ((Expr.binary .mul minusOne f.expr).tokens limit) f.expr.ranges := by
  intro s hlimit h hbelow
  have hnone : s.stack = ([] : List Operator).map .op ++ s.stack := rfl
  rcases reads_negated f hlimit h hnone (by simp) hbelow with
    ⟨s', ts, hreads, hts, hafter, hlimit', hrun, hranges, hstack, hout⟩
  refine ⟨s', .operand "-1" :: ts ++ [.op .mul], hreads, ?_, hafter, hlimit'.trans hlimit.symm,
    ?_, [.mul], s.stack, by simp, .inl rfl, ?_, ?_⟩
  · simp [Expr.tokens, tokens_minusOne, hts, Token.counted]
  · rw [flush_of_run_nil hrun, hranges]
  · rw [flush_of_run_nil hrun, hstack]
    rfl
  · rw [flush_of_run_nil hrun, hout]
    simp

/-- Behind a product or a quotient, a signed factor is multiplied with what that
    makes of minus one. -/
theorem converts_tight {op : Operator} (htight : op.precedence = Operator.precedence .mul)
    (a : Expr) (f : Factor) : Converts limit op.precedence (negated op a f)
      ((Expr.binary .mul (.binary op a minusOne) f.expr).tokens limit)
      (a.ranges ++ f.expr.ranges) := by
  intro s hlimit h hbelow
  rcases converts_text limit op.precedence a s hlimit h hbelow with
    ⟨s₁, us, hreads₁, hus, habsorbs⟩
  rcases habsorbs.operate rfl hbelow with ⟨hat, hlimit₁, hranges, ⟨kept, hstack, hmarks⟩, hout⟩
  rw [htight] at hbelow
  -- The operator waits when the multiplication comes, and binds as tightly.
  have hone : (s₁.operate op).stack = [op].map .op ++ kept := hstack
  rcases reads_negated f (hlimit₁.trans hlimit) hat hone (by simp [htight])
    (hbelow.marks hmarks) with
    ⟨s₂, ts, hreads₂, hts, hafter, hlimit₂, hrun, hranges₂, hstack₂, hout₂⟩
  refine ⟨s₂, us ++ .operand "-1" :: .op op :: ts ++ [.op .mul], ?_, ?_, hafter,
    hlimit₂.trans hlimit.symm, ?_, [.mul], kept, by simp [htight], hmarks, ?_, ?_⟩
  · refine hreads₁.append fun rest => ?_
    rw [List.append_assoc, read_operator habsorbs.after op (by simp) (by simp), hreads₂]
  · simp [Expr.tokens, tokens_minusOne, hus, hts, Token.counted]
  · rw [flush_of_run_nil hrun, hranges₂, hranges, List.reverse_append, List.append_assoc]
  · rw [flush_of_run_nil hrun, hstack₂]
    rfl
  · rw [flush_of_run_nil hrun, hout₂, hout]
    simp

/-- A signed factor is read as the tree that it is grouped as. -/
theorem postfixOf_negated (limit : Nat) (op : Operator) (a : Expr) (f : Factor) :
    (postfixOf limit (negated op a f)).map Token.counted = (grouped op a f).tokens limit := by
  unfold grouped
  by_cases hloose : op.precedence < Operator.precedence .mul
  · rw [if_pos hloose, Expr.tokens]
    exact (converts_binary (converts_text limit op.precedence a)
      ((converts_negated f).weaken hloose)
      ⟨'-', f.text, rfl, by decide, by decide⟩).postfixOf_counted
  · rw [if_neg hloose]
    have htight := Nat.le_antisymm op.precedence_le (Nat.le_of_not_lt hloose)
    exact (converts_tight htight a f).postfixOf_counted

/-- The product that the sign stands for is read as it is written. -/
theorem postfixOf_multiplied (limit : Nat) (op : Operator) (a : Expr) (f : Factor) :
    (postfixOf limit (multiplied op a f)).map Token.counted =
      (Expr.binary op a (.binary .mul minusOne f.expr)).tokens limit := by
  have hfactor :
      Converts limit (Operator.precedence .mul + 1) f.text (f.expr.tokens limit) f.expr.ranges :=
    (closes_factor f).converts _ f.gathered_head
  have hproduct := converts_binary (converts_text limit (Operator.precedence .mul) minusOne) hfactor
    f.starts_text
  rw [Expr.tokens, Expr.tokens]
  exact (converts_binary (converts_text limit op.precedence a) (converts_paren _ hproduct)
    ⟨'(', _, rfl, by decide, by decide⟩).postfixOf_counted

end Converter

/-! ## Values -/

variable (limit : Nat) (resolve : Resolver)

/-- A formula whose tokens are those of a tree has the value of the tree. -/
theorem renderWith_counted {body : List Char} {e : Expr}
    (h : (postfixOf limit body).map Token.counted = e.tokens limit) (s : Scope) :
    renderWith limit resolve (String.ofList ('=' :: body)) s = e.value limit resolve s := by
  have hrun := run_tokens resolve limit e [] [] s
  rw [List.append_nil, ← h, run_counted] at hrun
  unfold renderWith
  rw [String.toList_ofList]
  exact hrun

/-- A sign stands for minus one. -/
theorem value_minusOne (s : Scope) : minusOne.value limit resolve s = (.number (-1), s) := by
  have hvalue : signed true (Numeral.single '1' rfl).value = .number (-1) := by decide
  rw [minusOne, Expr.value, Atom.value, hvalue]

/-- Two numbers are multiplied. -/
theorem binary_mul {x y : Value} {p q : Float} (hx : x.asNumber? = some p)
    (hy : y.asNumber? = some q) : binary .mul x y = .number (p * q) := by
  have hoperands : operands? x y = some (p, q) := by simp [operands?, hx, hy]
  cases x <;> cases y <;> simp_all [binary, arithmetic, compute, Value.asNumber?]

/-- A factor of minus one between two numbers goes with either of them. -/
theorem binary_mul_assoc {x y : Value} (hx : x.asNumber?.isSome) (hy : y.asNumber?.isSome) :
    binary .mul (binary .mul x (.number (-1))) y =
      binary .mul x (binary .mul (.number (-1)) y) := by
  obtain ⟨p, hp⟩ := Option.isSome_iff_exists.1 hx
  obtain ⟨q, hq⟩ := Option.isSome_iff_exists.1 hy
  calc binary .mul (binary .mul x (.number (-1))) y
    _ = .number (p * -1 * q) := by rw [binary_mul hp rfl, binary_mul rfl hq]
    _ = .number (p * (-1 * q)) := by
      rw [Number.mul_neg_one, Number.neg_one_mul, Number.neg_mul_comm]
    _ = binary .mul x (binary .mul (.number (-1)) y) := by
      rw [binary_mul rfl hq, binary_mul hp rfl]

/-- Where the factor is a number, the product that a sign stands for is the negated
    number, and the operator sees that. -/
theorem renderWith_multiplied (op : Operator) (a : Expr) (f : Factor) (s : Scope) :
    let left := a.value limit resolve s
    let right := f.expr.value limit resolve left.2
    right.1.asNumber?.isSome →
      renderWith limit resolve (String.ofList ('=' :: multiplied op a f)) s =
        (binary op left.1 (negate right.1), right.2) := by
  intro left right hright
  obtain ⟨q, hq⟩ := Option.isSome_iff_exists.1 hright
  have hnegate : binary .mul (.number (-1)) right.1 = negate right.1 := by
    rw [binary_mul rfl hq, Number.neg_one_mul, negate, hq]
  rw [renderWith_counted limit resolve (Converter.postfixOf_multiplied limit op a f)]
  simp only [Expr.value, value_minusOne]
  exact congrArg (fun v => (binary op left.1 v, right.2)) hnegate

/-- A minus sign in front of a parenthesis or a call is a factor of minus one inside
    parentheses, which negates numbers, behind every operator but a quotient and
    whatever references resolve to. Behind a product this takes numbers on both
    sides, because other values are not multiplied. Behind a quotient the sign
    divides by minus one, and then the factor is multiplied where it should divide. -/
theorem renderWith_negated (op : Operator) (a : Expr) (f : Factor) (s : Scope) :
    let left := a.value limit resolve s
    let right := f.expr.value limit resolve left.2
    (right.1.asNumber?.isSome →
      renderWith limit resolve (String.ofList ('=' :: multiplied op a f)) s =
        (binary op left.1 (negate right.1), right.2)) ∧
    (op ≠ .div → (op = .mul → left.1.asNumber?.isSome ∧ right.1.asNumber?.isSome) →
      renderWith limit resolve (String.ofList ('=' :: negated op a f)) s =
        renderWith limit resolve (String.ofList ('=' :: multiplied op a f)) s) ∧
    (op = .div → renderWith limit resolve (String.ofList ('=' :: negated op a f)) s =
      (binary .mul (binary .div left.1 (.number (-1))) right.1, right.2)) := by
  intro left right
  refine ⟨renderWith_multiplied limit resolve op a f s, ?_⟩
  rw [renderWith_counted limit resolve (Converter.postfixOf_negated limit op a f),
    renderWith_counted limit resolve (Converter.postfixOf_multiplied limit op a f), grouped]
  by_cases hloose : op.precedence < Operator.precedence .mul
  · rw [if_pos hloose]
    exact ⟨fun _ _ => rfl, fun hdiv => absurd hloose (by simp [hdiv, Operator.precedence])⟩
  · rw [if_neg hloose]
    simp only [Expr.value, value_minusOne]
    refine ⟨fun hdiv hnumbers => ?_, fun hdiv => by rw [hdiv]⟩
    -- Only a product binds as tightly and is no quotient.
    have hmul : op = .mul := by cases op <;> simp_all [Operator.precedence]
    obtain ⟨hleft, hright⟩ := hnumbers hmul
    rw [hmul, binary_mul_assoc hleft hright]

/-- Behind a product the sign makes no difference to where it is read, and behind a
    quotient it does. -/
theorem renderWith_negated_eight :
    (renderWith 1 (resolver {} fun _ => "") "=8*-(2)" {}).1 = .number (-16) ∧
      (renderWith 1 (resolver {} fun _ => "") "=8/-(2)" {}).1 = .number (-16) ∧
        (renderWith 1 (resolver {} fun _ => "") "=8/(-1*(2))" {}).1 = .number (-4) := by
  have hnegated (op : Operator) := renderWith_negated 1 (resolver {} fun _ => "") op
    (.atom (.number false (.single '8' rfl))) (.paren (.atom (.number false (.single '2' rfl)))) {}
  have hsame := (hnegated .mul).2.1 (by decide) fun _ => ⟨by decide, by decide⟩
  have hother := (hnegated .div).2.2 rfl
  have hmeant := (hnegated .div).1 (by decide)
  refine ⟨(congrArg Prod.fst hsame).trans ?_, (congrArg Prod.fst hother).trans ?_,
    (congrArg Prod.fst hmeant).trans ?_⟩
  · decide +kernel
  · decide
  · decide

end Formula

end Worksheet
