import Worksheet.Proofs.Formula.Negation

/-!
# Sums as Chains of Additions

What `=SUM(X:Y)` has to do with `=0+r1+...+rn`.

The two formulas have little in common as programs. One puts out the cells of the
range and a call that counts them, and the function folds over the values that it
takes off the stack. The other puts out an operator behind every cell, so that the
sum of what came before is always on the stack. But a chain is read to the left, and
so its value is the same fold, taken one step at a time while the cells are resolved.
The order of the cells is the same in both, and resolving a cell does not depend on
what the sum has come to. The values need not be numbers for this, since the function
adds by the rules of the operator.

So the two formulas can be exchanged wherever they stand, in a cell of a sheet as
well: evaluating a text uses the texts of other cells only through their values.

## Main definitions

* `sumText`, `chainText`: The two formulas, as they are typed.
* `chain`: The chain, as a tree.

## Theorems

* `renderWith_sumText`, `renderWith_chainText`: What both come to.
* `evaluateCell_congr`: Texts that come to the same can be exchanged.
* `evaluateCell_sumText`: A sum and its chain can be exchanged.
-/

namespace Worksheet

namespace Formula

/-- The sum of a range, as it is typed. -/
def sumText (a b : Reference) : String :=
  String.ofList ('=' :: (['S', 'U', 'M', '('] ++ (a.chars ++ ':' :: (b.chars ++ [')']))))

/-- Zero and cells, with a plus sign in front of every cell. -/
def chainText (cells : List CellRef) : String :=
  String.ofList ('=' :: '0' :: cells.flatMap fun c => '+' :: c.toChars)

/-! ## Trees -/

/-- Cells added to a formula one after the other. -/
def chain (e : Expr) (rs : List Reference) : Expr :=
  rs.foldl (fun e r => .binary .add e (.atom (.cell false r))) e

/-- The number that a chain begins with. -/
def zero : Expr := .atom (.number false (.single '0' rfl))

/-- A chain as it is typed. It groups to the left, so it needs no parentheses. -/
theorem text_chain {e : Expr} (he : ∀ level ≤ Operator.precedence .add, e.text level = e.text 0)
    (rs : List Reference) {level : Nat} (hlevel : level ≤ Operator.precedence .add) :
    (chain e rs).text level = e.text 0 ++ rs.flatMap fun r => '+' :: r.chars := by
  induction rs generalizing e with
  | nil =>
    rw [List.flatMap_nil, List.append_nil]
    exact he level hlevel
  | cons r rs ih =>
    have hsum : ∀ level ≤ Operator.precedence .add,
        (Expr.binary .add e (.atom (.cell false r))).text level = e.text 0 ++ '+' :: r.chars := by
      intro level hlevel
      rw [Expr.text, if_neg (Nat.not_lt.2 hlevel), he _ (Nat.le_refl _)]
      rfl
    have hrest := ih (e := .binary .add e (.atom (.cell false r))) fun level hlevel => by
      rw [hsum level hlevel, hsum 0 (Nat.zero_le _)]
    rw [hsum 0 (Nat.zero_le _)] at hrest
    rw [List.flatMap_cons, ← List.append_assoc]
    exact hrest

variable (limit : Nat) (resolve : Resolver)

/-- Adding cells one after the other is resolving all of them and then adding the values
    in their order. -/
theorem value_chain (e : Expr) (rs : List Reference) (s : Scope) :
    (chain e rs).value limit resolve s =
      let start := e.value limit resolve s
      let values := cellValues resolve (rs.map Reference.cell) start.2
      (values.1.foldl (arithmetic .add) start.1, values.2) := by
  induction rs generalizing e with
  | nil => rfl
  | cons r rs ih =>
    have hrest := ih (.binary .add e (.atom (.cell false r)))
    rw [Expr.value] at hrest
    exact hrest

theorem value_zero (s : Scope) : zero.value limit resolve s = (.number 0.0, s) := by
  have hvalue : signed false (Numeral.single '0' rfl).value = .number 0.0 := by decide
  rw [zero, Expr.value, Atom.value, hvalue]

/-! ## Values -/

/-- The sum of a range within the limit adds the values of its cells. -/
theorem renderWith_sumText {a b : Reference} (h : (Range.between a.cell b.cell).count ≤ limit)
    (s : Scope) :
    renderWith limit resolve (sumText a b) s =
      let values := cellValues resolve (Range.between a.cell b.cell).cells s
      (sumOf values.1, values.2) := by
  have htext : sumText a b = String.ofList ('=' :: (rangeSum a b).text 0) := by
    rw [text_rangeSum, sumText]
  have hcells : rangeCells? limit (Range.between a.cell b.cell) =
      some (Range.between a.cell b.cell).cells := if_neg (Nat.not_lt.2 h)
  have hvalue : (rangeSum a b).value limit resolve s =
      let values := cellValues resolve (Range.between a.cell b.cell).cells s
      (callByName sumName.text values.1, values.2) := by
    rw [rangeSum, Expr.value, Args.values, Arg.values, rangeValues, hcells]
  rw [htext, renderWith_counted limit resolve (Converter.postfixOf_counted limit _), hvalue]
  rfl

/-- So does a chain of cells, whatever the limit. -/
theorem renderWith_chainText {cells : List CellRef}
    (hcells : ∀ c ∈ cells, CellRef.ofText? c.toText = some c) (s : Scope) :
    renderWith limit resolve (chainText cells) s =
      let values := cellValues resolve cells s
      (sumOf values.1, values.2) := by
  -- Each cell is spelled by its own notation.
  let rs : List Reference := cells.attach.map fun c =>
    ⟨c.1.toChars, c.1, by simpa [CellRef.ofText?, CellRef.toText] using hcells c.1 c.2⟩
  have hrefs : rs.map Reference.cell = cells := by
    rw [List.map_map]
    exact List.attach_map_subtype_val cells
  have hchars : rs.flatMap (fun r => '+' :: r.chars) = cells.flatMap fun c => '+' :: c.toChars := by
    simp [rs, List.flatMap_map]
  have htext : chainText cells = String.ofList ('=' :: (chain zero rs).text 0) := by
    rw [text_chain (fun _ _ => rfl) rs (Nat.zero_le _), hchars]
    rfl
  rw [htext, renderWith_counted limit resolve (Converter.postfixOf_counted limit _), value_chain,
    value_zero, hrefs]
  rfl

/-! ## Sheets -/

/-- Do two texts come to the same, wherever they stand? -/
def Alike (limit : Nat) (text text' : String) : Prop :=
  ∀ resolve s, renderWith limit resolve text s = renderWith limit resolve text' s

section

variable {limits : Limits} {lookup lookup' : Lookup}

/-- References resolve to the same when the texts of all cells come to the same. -/
theorem resolve_congr (h : ∀ c, Alike limits.rangeCells (lookup c) (lookup' c)) (fuel : Nat) :
    Formula.resolve limits lookup fuel = Formula.resolve limits lookup' fuel := by
  induction fuel with
  | zero => rfl
  | succ fuel ih =>
    funext c s
    have hc : renderWith limits.rangeCells (Formula.resolve limits lookup' fuel) (lookup c) =
        renderWith limits.rangeCells (Formula.resolve limits lookup' fuel) (lookup' c) :=
      funext (h c _)
    rw [Formula.resolve, Formula.resolve, ih, hc]

/-- Texts that come to the same can be exchanged in any number of cells. -/
theorem evaluateCell_congr (h : ∀ c, Alike limits.rangeCells (lookup c) (lookup' c))
    (c : CellRef) : evaluateCell limits lookup c = evaluateCell limits lookup' c := by
  rw [evaluateCell, evaluateCell, resolver, resolver, resolve_congr h]
  exact h c _ _

end

/-- The sum of a range that is within the limit and the chain of its cells evaluate to
    the same value with the same lookups, in whatever state an evaluation has come to and
    whatever references resolve to. So do a sheet and any other one that has chains in the
    places of some of its sums, in every cell. -/
theorem evaluateCell_sumText (limits : Limits) (a b : Reference)
    (h : (Range.between a.cell b.cell).count ≤ limits.rangeCells) :
    let chained := chainText (Range.between a.cell b.cell).cells
    Alike limits.rangeCells (sumText a b) chained ∧
      (∀ lookup, render limits lookup (sumText a b) = render limits lookup chained) ∧
      ∀ lookup lookup' : Lookup,
        (∀ c, lookup' c = lookup c ∨ lookup c = sumText a b ∧ lookup' c = chained) →
        ∀ c, evaluateCell limits lookup c = evaluateCell limits lookup' c := by
  intro chained
  have halike : Alike limits.rangeCells (sumText a b) chained := by
    intro resolve s
    rw [renderWith_sumText _ resolve h,
      renderWith_chainText _ resolve fun c hc => ofText?_cell_between hc]
  refine ⟨halike, fun lookup => halike _ _, fun lookup lookup' hcells => ?_⟩
  refine evaluateCell_congr fun c => ?_
  rcases hcells c with heq | ⟨hsum, hchain⟩
  · rw [heq]
    exact fun _ _ => rfl
  · rw [hsum, hchain]
    exact halike

/-- So they do over a number, a word, a blank and a formula, where the sum ends as a text. -/
theorem evaluateCell_sumText_mixed :
    let lookup : Lookup := fun c => if c = ⟨0, 0⟩ then "1" else if c = ⟨0, 1⟩ then "x"
      else if c = ⟨1, 1⟩ then "=A1+1" else ""
    (Range.between ⟨0, 0⟩ ⟨1, 1⟩).count ≤ ({} : Limits).rangeCells ∧
      render {} lookup "=SUM(A1:B2)" = render {} lookup "=0+A1+B1+A2+B2" := by
  intro lookup
  have hcount : (Range.between ⟨0, 0⟩ ⟨1, 1⟩).count ≤ ({} : Limits).rangeCells := by decide
  have hsame := (evaluateCell_sumText {} ⟨['A', '1'], ⟨0, 0⟩, by decide⟩
    ⟨['B', '2'], ⟨1, 1⟩, by decide⟩ hcount).2.1 lookup
  have hchain : chainText (Range.between ⟨0, 0⟩ ⟨1, 1⟩).cells = "=0+A1+B1+A2+B2" := by
    decide +kernel
  rw [hchain] at hsame
  exact ⟨hcount, hsame⟩

end Formula

end Worksheet
