import Worksheet.Proofs.Formula.Conversion

/-!
# Running a Post-Order

Running the tokens of a tree pushes the value of the tree.

The statement is about tokens with others after them and values below them, so
that it can be used for each subtree in turn. A call finds its arguments on the
stack because the arguments of a tree push exactly as many values as the call
counts, which is the one place where counting a range as its cells matters.

The last theorem puts both halves together: what a formula is typed as, and
what it evaluates to. It tells when there is an end to converting the formula as
well, which is a question of how the cells of its ranges are counted.

## Theorems

* `operandValue_numeral`, `operandValue_cell`: What a leaf evaluates to.
* `Args.length_values`: Arguments have as many values as operands.
* `run_tokens`: The post-order of a tree pushes its value.
* `isSome_postfixOf?_text`: When a formula has tokens.
* `postfixOf?_text`: A formula converts to its post-order and runs to its value.
-/

namespace Worksheet

namespace Formula

variable (resolve : Resolver)

/-- Whether a call counted its arguments in a list does not matter to a run. -/
theorem run_counted (ts : List Token) (stack : List Value) (s : Scope) :
    run resolve (ts.map Token.counted) stack s = run resolve ts stack s := by
  induction ts generalizing stack s with
  | nil => rfl
  | cons t ts ih =>
    cases t with
    | operand text => simp [Token.counted, run, ih]
    | quoted text => simp [Token.counted, run, ih]
    | op o => simp [Token.counted, run, ih]
    | func name arity => simp [Token.counted, run, ih]
    | call name arity => simp [Token.counted, run, ih]

/-! ## Leaves -/

/-- A number evaluates to the nearest double. -/
theorem operandValue_numeral (n : Numeral) (s : Scope) :
    operandValue resolve (String.ofList n.chars) s = (n.value, s) := by
  rcases n.head?_chars with ⟨c, hc, hdigit⟩
  have htext : Number.ofText? (String.ofList n.chars) =
      if (Number.nearest (Nat.ofDigitChars 10 (n.whole ++ n.places) 0)
        (-(n.places.length : Int))).isFinite
      then some (Number.nearest (Nat.ofDigitChars 10 (n.whole ++ n.places) 0)
        (-(n.places.length : Int)))
      else none := by
    rw [Number.ofText?, String.toList_ofList, Text.trimChars_of_not_isBlank (n.isBlank_of_mem),
      n.read?_chars]
    rfl
  unfold operandValue Numeral.value
  rw [String.toList_ofList, hc]
  simp only [hdigit, Bool.true_or, if_true, htext]
  split <;> rename_i h <;> split at h <;> simp_all

/-- A cell evaluates to what it resolves to. -/
theorem operandValue_cell {body : String} {r : CellRef} (h : CellRef.ofText? body = some r)
    (s : Scope) : operandValue resolve body s = resolve r s := by
  rw [operandValue_eq, meaning_eq_cell_iff.2 h]
  rfl

/-- A minus sign in front negates. -/
theorem operand_signed (negative : Bool) {cs : List Char} (hc : cs.head? ≠ some '-') (s : Scope) :
    operand resolve (String.ofList (signChars negative ++ cs)) s =
      (signed negative (operandValue resolve (String.ofList cs) s).1,
        (operandValue resolve (String.ofList cs) s).2) := by
  rw [operand_eq, operandValue_eq]
  cases negative with
  | false => rw [signChars, if_neg (by decide), List.nil_append, splitSign_of_head hc]
  | true => rw [signChars, if_pos rfl, List.singleton_append, splitSign_minus]

/-- A leaf pushes its value. -/
theorem run_atom (a : Atom) (rest : List Token) (stack : List Value) (s : Scope) :
    run resolve (a.token :: rest) stack s =
      run resolve rest ((a.value resolve s).1 :: stack) (a.value resolve s).2 := by
  cases a with
  | number negative n =>
    rcases n.head?_chars with ⟨c, hc, hdigit⟩
    have hminus : n.chars.head? ≠ some '-' := by
      rw [hc]
      rintro ⟨⟩
      exact absurd hdigit (by decide)
    rw [Atom.token, run, operand_signed resolve negative hminus, operandValue_numeral]
    rfl
  | cell negative r =>
    have hcell := r.ofText?_capitals
    rcases ofText?_head hcell with ⟨c, hc, hletter⟩
    rw [String.toList_ofList] at hc
    have hminus : (r.chars.map Text.upper).head? ≠ some '-' := by
      rw [hc]
      rintro ⟨⟩
      exact absurd hletter (by decide)
    rw [Atom.token, run, operand_signed resolve negative hminus, operandValue_cell resolve hcell]
    rfl
  | truth b => cases b <;> rfl
  | quoted body h => rfl

/-! ## Ranges -/

/-- Cells push their values, one after the other. -/
theorem run_cells (cs : List CellRef) (hcs : ∀ c ∈ cs, CellRef.ofText? c.toText = some c)
    (rest : List Token) (stack : List Value) (s : Scope) :
    run resolve (cs.map (fun c => .operand c.toText) ++ rest) stack s =
      run resolve rest ((cellValues resolve cs s).1.reverse ++ stack)
        (cellValues resolve cs s).2 := by
  induction cs generalizing stack s with
  | nil => rfl
  | cons c cs ih =>
    have hc := hcs c (by simp)
    rcases ofText?_head hc with ⟨d, hd, hletter⟩
    -- A notation begins with a letter, so it has no sign.
    have hminus : c.toText.toList.head? ≠ some '-' := by
      rw [hd]
      rintro ⟨⟩
      exact absurd hletter (by decide)
    have hoperand : operand resolve c.toText s = resolve c s := by
      have := operand_signed resolve false hminus s
      rw [signChars, if_neg (by decide), List.nil_append, String.ofList_toList,
        operandValue_cell resolve hc] at this
      exact this
    have hrest := ih fun d hd => hcs d (by simp [hd])
    rw [List.map_cons, List.cons_append, run, hoperand]
    simp only [hrest, cellValues, List.reverse_cons, List.append_assoc, List.singleton_append]

/-- There are as many values as cells. -/
theorem length_cellValues (cs : List CellRef) (s : Scope) :
    (cellValues resolve cs s).1.length = cs.length := by
  induction cs generalizing s with
  | nil => rfl
  | cons c cs ih => simp [cellValues, ih]

/-- A range pushes the values it stands for. -/
theorem run_rangeOperands (limit : Nat) (a b : Reference) (rest : List Token) (stack : List Value)
    (s : Scope) :
    run resolve (rangeOperands limit (Range.between a.cell b.cell) ++ rest) stack s =
      run resolve rest
        ((rangeValues limit resolve (Range.between a.cell b.cell) s).1.reverse ++ stack)
        (rangeValues limit resolve (Range.between a.cell b.cell) s).2 := by
  unfold rangeOperands rangeValues
  cases hcells : rangeCells? limit (Range.between a.cell b.cell) with
  | none => rfl
  | some cells =>
    obtain rfl := eq_cells_of_rangeCells? hcells
    exact run_cells resolve _ (fun c hc => ofText?_cell_between hc) rest stack s

/-- A range has as many values as operands. -/
theorem length_rangeValues (limit : Nat) (r : Range) (s : Scope) :
    (rangeValues limit resolve r s).1.length = (rangeOperands limit r).length := by
  unfold rangeOperands rangeValues
  split
  · rfl
  · rw [length_cellValues, List.length_map]

/-! ## Trees -/

mutual

/-- Arguments have as many values as operands. -/
theorem Args.length_values (limit : Nat) (s : Scope) :
    (args : Args) → (args.values limit resolve s).1.length = args.count limit
  | .last a => by
    rw [Args.values, Args.count]
    exact Arg.length_values limit s a
  | .more a rest => by
    rw [Args.values, Args.count]
    simp only [List.length_append]
    rw [Arg.length_values limit s a, Args.length_values limit _ rest]

/-- An argument has as many values as operands. -/
theorem Arg.length_values (limit : Nat) (s : Scope) :
    (a : Arg) → (a.values limit resolve s).1.length = a.count limit
  | .value e => by
    rw [Arg.values, Arg.count]
    rfl
  | .range a b => by
    rw [Arg.values, Arg.count]
    exact length_rangeValues resolve limit _ s

end

/-- A call takes as many values as it counts. -/
theorem applyCall_append (name : String) (vs stack : List Value) :
    applyCall name vs.length (vs.reverse ++ stack) = some (callByName name vs :: stack) := by
  unfold applyCall
  rw [if_neg (by simp), List.take_left' (by simp), List.drop_left' (by simp), List.reverse_reverse]

mutual

/-- The post-order of a formula pushes its value. -/
theorem run_tokens (limit : Nat) : (e : Expr) → (rest : List Token) → (stack : List Value) →
    (s : Scope) → run resolve (e.tokens limit ++ rest) stack s =
      run resolve rest ((e.value limit resolve s).1 :: stack) (e.value limit resolve s).2
  | .atom a, rest, stack, s => by
    rw [Expr.tokens, Expr.value]
    exact run_atom resolve a rest stack s
  | .binary op a b, rest, stack, s => by
    rw [Expr.tokens, Expr.value, List.append_assoc, List.append_assoc, run_tokens limit a,
      run_tokens limit b, List.singleton_append, run, applyOp]
  | .callEmpty name many, rest, stack, s => by
    rw [Expr.tokens, Expr.value, List.singleton_append, run]
    rfl
  | .call name args, rest, stack, s => by
    -- The arguments have left as many values on the stack as the call takes.
    rw [Expr.tokens, Expr.value, List.append_assoc, run_args limit args, List.singleton_append,
      run, ← Args.length_values resolve limit s args, applyCall_append]

/-- The tokens of arguments push their values. -/
theorem run_args (limit : Nat) : (args : Args) → (rest : List Token) → (stack : List Value) →
    (s : Scope) → run resolve (args.tokens limit ++ rest) stack s =
      run resolve rest ((args.values limit resolve s).1.reverse ++ stack)
        (args.values limit resolve s).2
  | .last a, rest, stack, s => by
    rw [Args.tokens, Args.values, run_arg limit a]
  | .more a args, rest, stack, s => by
    rw [Args.tokens, Args.values, List.append_assoc, run_arg limit a, run_args limit args]
    simp only [List.reverse_append, List.append_assoc]

/-- The tokens of an argument push its values. -/
theorem run_arg (limit : Nat) : (a : Arg) → (rest : List Token) → (stack : List Value) →
    (s : Scope) → run resolve (a.tokens limit ++ rest) stack s =
      run resolve rest ((a.values limit resolve s).1.reverse ++ stack) (a.values limit resolve s).2
  | .value e, rest, stack, s => by
    rw [Arg.tokens, Arg.values, run_tokens limit e]
    rfl
  | .range a b, rest, stack, s => by
    rw [Arg.tokens, Arg.values, run_rangeOperands]

end

/-- Running the tokens of a formula pushes the value of its tree and nothing else. -/
theorem run_postfixOf (limit : Nat) (e : Expr) (rest : List Token) (stack : List Value)
    (s : Scope) : run resolve (postfixOf limit (e.text 0) ++ rest) stack s =
      run resolve rest ((e.value limit resolve s).1 :: stack) (e.value limit resolve s).2 := by
  -- A run does not see which calls counted, so all tokens are counted and then back again.
  rw [← run_counted, List.map_append, Converter.postfixOf_counted, run_tokens, run_counted]

/-- A formula has tokens if and only if there is an end to replacing each of its
    ranges. -/
theorem isSome_postfixOf?_text (limit : Nat) (e : Expr) :
    (postfixOf? limit (e.text 0)).isSome ↔ ∀ r ∈ e.ranges, IsReplaced limit r := by
  unfold postfixOf?
  rw [Converter.expandedRanges_text]
  simp

/-- Where there is an end to replacing its ranges, and only there, a formula converts.
    Its tokens are the post-order of its tree, whatever the limit on ranges, and
    running them pushes the value of the tree and nothing else. -/
theorem postfixOf?_text (limit : Nat) (e : Expr) :
    ((postfixOf? limit (e.text 0)).isSome ↔ ∀ r ∈ e.ranges, IsReplaced limit r) ∧
      ∀ tokens, postfixOf? limit (e.text 0) = some tokens →
        tokens.map Token.counted = e.tokens limit ∧
          (∀ resolve rest stack s, run resolve (tokens ++ rest) stack s =
            run resolve rest ((e.value limit resolve s).1 :: stack)
              (e.value limit resolve s).2) ∧
          ∀ limits lookup, evaluateTokens limits lookup tokens =
            e.value limit (resolver limits lookup) {} := by
  refine ⟨isSome_postfixOf?_text limit e, fun tokens htokens => ?_⟩
  obtain rfl := eq_postfixOf htokens
  refine ⟨Converter.postfixOf_counted limit e, fun resolve => run_postfixOf resolve limit e,
    fun limits lookup => ?_⟩
  have hrun := run_postfixOf (resolver limits lookup) limit e [] [] {}
  rw [List.append_nil] at hrun
  rw [evaluateTokens, hrun]
  rfl

/-- The sum of a square of four cells has these row by row, and adds them up. -/
theorem postfixOf?_text_sum :
    let tokens := [.operand "A1", .operand "B1", .operand "A2", .operand "B2", .call "SUM" 4]
    postfixOf? 4 "SUM(A1:B2)".toList = some tokens ∧
      (run (fun _ s => (.number 1, s)) tokens [] {}).1 = .number 4 := by
  intro tokens
  have htokens : postfixOf? 4 "SUM(A1:B2)".toList = some tokens := by decide +kernel
  have hrun := ((postfixOf?_text 4 (rangeSum ⟨['A', '1'], ⟨0, 0⟩, by decide⟩
    ⟨['B', '2'], ⟨1, 1⟩, by decide⟩)).2 tokens htokens).2.1 (fun _ s => (.number 1, s)) [] [] {}
  rw [List.append_nil, rangeSum, Expr.value, Args.values, Arg.values] at hrun
  refine ⟨htokens, (congrArg Prod.fst hrun).trans ?_⟩
  decide +kernel

/-- A square with sides of 2 ^ 32 has its cells counted as none. There is no end to
    replacing it, although it has more of them than any limit, and no lost reference
    takes its place. -/
theorem postfixOf?_square :
    let square := Range.between .origin ⟨UInt32.size - 1, UInt32.size - 1⟩
    square.count = Address.gridLimit ∧ square.tally = 0 ∧
      ∀ limit, postfixOf? limit "SUM(A1:MWLQKWV4294967296)".toList = none := by
  intro square
  have hcount : square.count = Address.gridLimit ∧ square.tally = 0 := by decide
  refine ⟨hcount.1, hcount.2, fun limit => ?_⟩
  have hreplaced : ¬IsReplaced limit square := by
    have hlist : ¬Address.gridLimit < listLimit := by decide
    rw [IsReplaced, hcount.1, hcount.2]
    simp [hlist]
  have htokens := isSome_postfixOf?_text limit (rangeSum ⟨['A', '1'], .origin, by decide⟩
    ⟨"MWLQKWV4294967296".toList, ⟨UInt32.size - 1, UInt32.size - 1⟩, by decide⟩)
  rw [text_rangeSum] at htokens
  rw [← Option.not_isSome_iff_eq_none]
  exact fun h => hreplaced (htokens.1 h square
    (by simp [rangeSum, Expr.ranges, Args.ranges, Arg.ranges, square]))

end Formula

end Worksheet
