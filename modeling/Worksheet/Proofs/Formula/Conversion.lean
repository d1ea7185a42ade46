import Worksheet.Proofs.Formula.Absorption

/-!
# Formulas Convert to Their Post-Order

The text of a tree, read by the converter, becomes the post-order of the tree.

The induction is on the tree, and what carries it is a statement about reading
the text of a subtree in the middle of a formula. The converter is at an
operand and nothing that binds as tightly as the level of the subtree waits on
top of the stack. Reading the text then absorbs the tokens of the subtree.

Arguments are read inside a call that has counted one argument more than was
put out, because a call is opened with one argument in sight.

## Main definitions

* `Converts`: What reading the text of a subtree does.
* `Closes`: What reading on to a closing parenthesis does.
* `ConvertsArg`, `ConvertsArgs`: The same for the arguments of an open call.

## Theorems

* `converts_binary`: Two operands around an operator.
* `closes_paren`, `closes_callEmpty`, `closes_call`: The three kinds of frame.
* `converts_text`: Every formula converts.
* `postfixOf_counted`: A whole text becomes the post-order of its tree.
* `expandedRanges_text`: The ranges of a whole text are those of its tree.
-/

namespace Worksheet

namespace Formula

namespace Converter

/-! ## Formulas -/

/-- Wherever an operand is expected and nothing that binds as tightly as the
    level waits, reading the text absorbs the tokens and the ranges. -/
def Converts (limit level : Nat) (cs : List Char) (ts : List Token) (rs : List Range) : Prop :=
  ∀ s : Converter, s.rangeLimit = limit → AtOperand s → StopsBelow level s.stack →
    ∃ s' ts', Reads s cs s' ∧ ts'.map Token.counted = ts ∧ Absorbs level ts' rs s s'

/-- A text that converts at a level converts at a looser one. -/
theorem Converts.weaken {limit low high : Nat} {cs : List Char} {ts : List Token} {rs : List Range}
    (hle : low ≤ high) (h : Converts limit high cs ts rs) : Converts limit low cs ts rs := by
  intro s hlimit hat hbelow
  rcases h s hlimit hat (fun o ps heq => Nat.lt_of_lt_of_le (hbelow o ps heq) hle) with
    ⟨s', ts', hreads, hts, habsorbs⟩
  exact ⟨s', ts', hreads, hts, habsorbs.weaken hle⟩

/-- A leaf converts to its token. -/
theorem converts_atom (limit level : Nat) (a : Atom) :
    Converts limit level a.text [a.token] [] := by
  intro s hlimit h hbelow
  cases a with
  | number negative n =>
    rcases absorbs_run h level negative (Numeral.chars_ne_nil n) (Numeral.isGathered_of_mem n) with
      ⟨s', hreads, habsorbs⟩
    rw [Numeral.map_upper_chars] at habsorbs
    exact ⟨s', _, hreads, rfl, habsorbs⟩
  | cell negative r =>
    rcases absorbs_run h level negative (Reference.chars_ne_nil r)
      (Reference.isGathered_of_mem r) with
      ⟨s', hreads, habsorbs⟩
    exact ⟨s', _, hreads, rfl, habsorbs⟩
  | truth b =>
    have hne : (Atom.truth b).text ≠ [] := by cases b <;> decide
    have hgathered : ∀ c ∈ (Atom.truth b).text, isGathered c = true := by
      cases b <;> exact List.all_eq_true.1 (by decide)
    rcases absorbs_run h level false hne hgathered with ⟨s', hreads, habsorbs⟩
    refine ⟨s', _, hreads, ?_, habsorbs⟩
    cases b <;> decide
  | quoted body hb =>
    rcases absorbs_quoted h level hb with ⟨s', hreads, habsorbs⟩
    exact ⟨s', _, hreads, rfl, habsorbs⟩

/-- Two operands around an operator convert, if the left one may bind as loosely
    as the operator and the right one binds more tightly. -/
theorem converts_binary {limit : Nat} {op : Operator} {as bs : List Char} {us vs : List Token}
    {ps qs : List Range} (ha : Converts limit op.precedence as us ps)
    (hb : Converts limit (op.precedence + 1) bs vs qs) (hstarts : Starts bs) :
    Converts limit op.precedence (as ++ (op.symbol.toList ++ bs)) (us ++ (vs ++ [.op op]))
      (ps ++ qs) := by
  intro s hlimit h hbelow
  -- The left operand is read, and the operator puts out all that still waits of it.
  rcases ha s hlimit h hbelow with ⟨s₁, us', hreads₁, hus, habsorbs₁⟩
  rcases habsorbs₁.operate rfl hbelow with ⟨hat, hlimit₁, hranges₁, ⟨kept, hstack, hmarks⟩, hout⟩
  have hbelow' : StopsBelow (op.precedence + 1) (s₁.operate op).stack := by
    rw [hstack]
    intro o ps heq
    simp only [List.cons.injEq, Pending.op.injEq] at heq
    rw [← heq.1]
    exact Nat.lt_succ_self _
  -- The operator waits now, and nothing of the right operand may put it out.
  rcases hb (s₁.operate op) (hlimit₁.trans hlimit) hat hbelow' with
    ⟨s₂, vs', hreads₂, hvs, hafter, hlimit₂, hranges₂, ops, kept₂, hops, hmarks₂, hflush, hout₂⟩
  rw [hstack] at hmarks₂
  rcases hmarks₂.of_op with ⟨kept', rfl, hmarks'⟩
  -- Once the run ends, the operators of the right operand go out, and then this one.
  refine ⟨s₂, us' ++ (vs' ++ [.op op]), ?_, by simp [hus, hvs, Token.counted], hafter,
    hlimit₂.trans hlimit₁, ?_, ops ++ [op], kept', ?_, hmarks.trans hmarks', ?_, ?_⟩
  · have hsymbol : Reads s₁ (op.symbol.toList ++ bs) s₂ := by
      intro rest
      have hhead := hstarts.head_ne rest
      rw [List.append_assoc, read_operator habsorbs₁.after op hhead.1 hhead.2, hreads₂]
    exact hreads₁.append hsymbol
  · rw [hranges₂, hranges₁, List.reverse_append, List.append_assoc]
  · intro o ho
    rw [List.mem_append, List.mem_singleton] at ho
    rcases ho with ho | rfl
    · have := hops o ho
      omega
    · exact Nat.le_refl _
  · simpa using hflush
  · rw [List.map_append, List.reverse_append]
    simp [hout₂, hout]

/-! ## Parentheses and calls -/

theorem frame_name (name : Name) (mark : Nat) :
    frame (name.chars.map Text.upper) mark = .call name.text 1 false mark :=
  if_neg (by simpa using name.ne_nil)

/-- A sign, a name, or neither, and a parenthesis open a frame. -/
theorem reads_frame {s : Converter} (h : AtOperand s) (negative : Bool) {head : List Char}
    (hhead : ∀ c ∈ head, isGathered c = true) :
    Reads s (signChars negative ++ (head ++ ['('])) { (s.factorSign negative).openFrame
      (head.map Text.upper) with previous := some '(' } := by
  have hname := (reads_sign h negative).append (reads_gathered (by exact h.quote) hhead)
  rw [← List.append_assoc]
  refine hname.append fun rest => ?_
  have hrun : (head.map Text.upper).reverse ++ signChars negative =
      (signChars negative ++ head.map Text.upper).reverse := by
    cases negative <;> simp [signChars]
  rw [List.singleton_append, read_cons (by exact h.quote) (by decide), feed_paren,
    openParen_eq hrun (forall_upper hhead)]
  -- What was the last character is forgotten, and the run had been empty before.
  have hempty := h.run
  cases negative with
  | false => simp [factorSign, openFrame, hempty]
  | true => simp [factorSign, openFrame, put, pushOp, hempty]

/-- Inside an open frame, reading a text and the parenthesis that closes it puts
    out the tokens, replaces the ranges and takes the frame off the stack. -/
def Closes (limit : Nat) (head inside : List Char) (ts : List Token) (rs : List Range) : Prop :=
  ∀ (s : Converter) (st : List Pending), s.rangeLimit = limit → AtOperand s →
    s.stack = frame (head.map Text.upper) s.output.length :: st →
      ∃ (s' : Converter) (ts' : List Token), Reads s (inside ++ [')']) s' ∧
        ts'.map Token.counted = ts ∧ AfterOperand s' ∧ s'.rangeLimit = limit ∧ s'.run = [] ∧
          s'.ranges = rs.reverse ++ s.ranges ∧ s'.stack = st ∧ s'.output = ts'.reverse ++ s.output

/-- A frame that is opened and closed converts at every level. -/
theorem Closes.converts {limit : Nat} (level : Nat) {head inside : List Char} {ts : List Token}
    {rs : List Range} (h : Closes limit head inside ts rs)
    (hhead : ∀ c ∈ head, isGathered c = true) :
    Converts limit level (head ++ '(' :: (inside ++ [')'])) ts rs := by
  intro s hlimit hat hbelow
  rcases h { s.openFrame (head.map Text.upper) with previous := some '(' } s.stack hlimit
      ⟨hat.quote, hat.run, hat.rangeStart, rfl⟩ rfl with
    ⟨s', ts', hreads, hts, hafter, hlimit', hrun, hranges, hstack, hout⟩
  refine ⟨s', ts', ?_, hts,
    .of_closed hafter (hlimit'.trans hlimit.symm) hrun hranges hstack hout⟩
  have hopen : Reads s (head ++ ['(']) { s.openFrame (head.map Text.upper) with
      previous := some '(' } := reads_frame hat false hhead
  simpa using hopen.append hreads

/-- A bare parenthesis closes around a formula. -/
theorem closes_paren {limit inner : Nat} {cs : List Char} {ts : List Token} {rs : List Range}
    (hinner : Converts limit inner cs ts rs) : Closes limit [] cs ts rs := by
  intro s st hlimit h hstack
  have hparen : s.stack = .paren :: st := hstack
  rcases hinner s hlimit h (by rw [hparen]; intro o ps heq; simp at heq) with
    ⟨t, us, hreads, hus, hafter, hlimit', hranges, ops, kept, -, hmarks, hflush, hout⟩
  -- There is no call inside the parenthesis, so nothing outside of it was marked.
  have hkept : kept = .paren :: st := by
    rw [hparen] at hmarks
    rcases hmarks with rfl | rfl <;> rfl
  rw [hkept] at hflush
  rcases closed_frame hafter.quote hflush rfl with
    ⟨hafter', hlimit'', hrun, hranges', hst, hout'⟩
  exact ⟨t.feed ')', us, hreads.append (.single hafter.quote (by decide)), hus, hafter',
    hlimit''.trans (hlimit'.trans hlimit), hrun, hranges'.trans hranges, hst, hout'.trans hout⟩

/-- In parentheses, a text converts at every level. -/
theorem converts_paren {limit inner : Nat} (level : Nat) {cs : List Char} {ts : List Token}
    {rs : List Range} (hinner : Converts limit inner cs ts rs) :
    Converts limit level ('(' :: (cs ++ [')'])) ts rs :=
  (closes_paren hinner).converts level (by simp)

/-- A call closes without arguments, unless its function always takes one. -/
theorem closes_callEmpty (limit : Nat) (name : Name) (many : name.isUnary = false) :
    Closes limit name.chars [] [.call name.text 0] [] := by
  intro s st hlimit h hstack
  rw [frame_name] at hstack
  have hflush : s.flush.stack =
      ([] : List Operator).map .op ++ .call name.text 1 false s.output.length :: st := by
    rw [flush_of_run_nil h.run, hstack]
    rfl
  rcases closed_frame h.quote hflush rfl with
    ⟨hafter, hlimit', hrun, hranges, hst, hout⟩
  rw [flush_of_run_nil h.run] at hranges hout
  -- Nothing was put out since the call was opened, so it has no argument.
  have htoken : callToken name.text 1 false s.output.length s.output = .func name.text 0 := by
    unfold Name.isUnary at many
    simp [callToken, many]
  refine ⟨s.feed ')', [.func name.text 0], .single h.quote (by decide), rfl, hafter,
    hlimit'.trans hlimit, hrun, hranges, hst, ?_⟩
  rw [hout]
  exact congrArg (· :: s.output) htoken

/-! ## Ranges -/

/-- A cell and a colon open a range. -/
theorem reads_rangeStart {s : Converter} (h : AtOperand s) (a : Reference) :
    Reads s (a.chars ++ [':']) { s with
      output := .operand (String.ofList (a.chars.map Text.upper)) :: s.output
      previous := some ':'
      rangeStart := some s.output.length } := by
  have ha := reads_operand h false (Reference.chars_ne_nil a) (Reference.isGathered_of_mem a)
  simp only [signChars, Bool.false_eq_true, if_false, List.nil_append] at ha
  refine ha.append fun rest => ?_
  have hne : (a.chars.map Text.upper).reverse ≠ [] := by simpa using Reference.chars_ne_nil a
  have hrun := h.run
  rw [List.singleton_append, read_cons (by exact h.quote) (by decide), feed_colon]
  simp only [colon]
  rw [flush_of_rangeStart_none hne (by exact h.rangeStart)]
  simp only [List.reverse_reverse, hrun]

/-- A range leaves its cells in the output once the run ends, the call counts all of
    them, and the range has been replaced. -/
theorem reads_range {s : Converter} (h : AtOperand s) (a b : Reference) :
    ∃ s', Reads s (a.chars ++ ':' :: b.chars) s' ∧ s'.quote = none ∧ s'.rangeLimit = s.rangeLimit ∧
      s'.flush.ranges = Range.between a.cell b.cell :: s.ranges ∧
      s'.flush.output =
        (rangeOperands s.rangeLimit (Range.between a.cell b.cell)).reverse ++ s.output ∧
      s'.flush.stack = editCall (fun n =>
        n + ((rangeOperands s.rangeLimit (Range.between a.cell b.cell)).length - 1)) s.stack := by
  have hreads := (reads_rangeStart h a).append
    (reads_gathered (by exact h.quote) (Reference.isGathered_of_mem b))
  rw [List.append_assoc, List.singleton_append] at hreads
  refine ⟨_, hreads, h.quote, rfl, ?_⟩
  have hrun := h.run
  rw [flush_of_rangeStart_some (by simp [Reference.chars_ne_nil b]) (by rfl)]
  simp only [hrun, List.append_nil, List.reverse_reverse]
  -- The run holds the second cell, and the first one is the last that was put out.
  rw [expandRange_pair rfl (Reference.ofText?_capitals a) (Reference.ofText?_capitals b)]
  exact ⟨rfl, rfl, rfl⟩

/-! ## Arguments -/

/-- What reading an argument of an open call does: once the run ends, operators
    of the argument stand above the call, which has counted the operands of the
    argument. Unless it was just one, the call is marked. The ranges of the argument
    have been replaced. -/
structure ReadsArgument (limit : Nat) (a : Arg) (name : String) (n : Nat) (counted : Bool)
    (mark : Nat) (st : List Pending) (s s' : Converter) (ts : List Token) : Prop where
  reads : Reads s a.text s'
  quote : s'.quote = none
  rangeLimit : s'.rangeLimit = limit
  ranges : s'.flush.ranges = a.ranges.reverse ++ s.ranges
  tokens : ts.map Token.counted = a.tokens limit
  settled : ∃ (ops : List Operator) (counted' : Bool),
    s'.flush.stack = ops.map .op ++ .call name (n + a.count limit) counted' mark :: st ∧
      (ops.map Token.op).reverse ++ s'.flush.output = ts.reverse ++ s.output ∧
      (counted' = true ∨ counted' = counted ∧ a.count limit = 1)

/-- Reading an argument does what it should in every open call. -/
def ConvertsArg (limit : Nat) (a : Arg) : Prop :=
  ∀ (s : Converter) (name : String) (n : Nat) (counted : Bool) (mark : Nat) (st : List Pending),
    s.rangeLimit = limit → AtOperand s → s.stack = .call name (n + 1) counted mark :: st →
      ∃ s' ts, ReadsArgument limit a name n counted mark st s s' ts

/-- A formula as an argument is one operand. -/
theorem readsArgument_value {limit : Nat} {e : Expr}
    (he : Converts limit 0 (e.text 0) (e.tokens limit) e.ranges) {s : Converter}
    (h : AtOperand s) (hlimit : s.rangeLimit = limit) {name : String} {n : Nat} {counted : Bool}
    {mark : Nat} {st : List Pending} (hstack : s.stack = .call name (n + 1) counted mark :: st) :
    ∃ s' ts, ReadsArgument limit (.value e) name n counted mark st s s' ts := by
  have hbelow : StopsBelow 0 s.stack := by
    rw [hstack]
    intro o ps heq
    simp at heq
  rcases he s hlimit h hbelow with
    ⟨s', ts, hreads, hts, hafter, hlimit', hranges, ops, kept, -, hmarks, hflush, hout⟩
  rw [hstack] at hmarks
  refine ⟨s', ts, ⟨by rwa [Arg.text], hafter.quote, hlimit'.trans hlimit, by rwa [Arg.ranges],
    by rwa [Arg.tokens], ?_⟩⟩
  -- A comparison in the argument marks the call, and otherwise it stays as it was.
  rcases hmarks with rfl | rfl
  · exact ⟨ops, counted, by rwa [Arg.count], hout, .inr ⟨rfl, by rw [Arg.count]⟩⟩
  · exact ⟨ops, true, by rwa [Arg.count], hout, .inl rfl⟩

/-- A range as an argument is as many operands as it has cells, and marks the
    call. -/
theorem readsArgument_range (limit : Nat) (a b : Reference) {s : Converter} (h : AtOperand s)
    (hlimit : s.rangeLimit = limit) {name : String} {n : Nat} {counted : Bool} {mark : Nat}
    {st : List Pending} (hstack : s.stack = .call name (n + 1) counted mark :: st) :
    ∃ s', ReadsArgument limit (.range a b) name n counted mark st s s'
      (rangeOperands limit (Range.between a.cell b.cell)) := by
  rcases reads_range h a b with ⟨s', hreads, hquote, hlimit', hranges, hout, hedit⟩
  rw [hlimit] at hout hedit hlimit'
  have hpos := List.length_pos_iff.2 (rangeOperands_ne_nil limit (Range.between a.cell b.cell))
  have hcount : n + 1 + ((rangeOperands limit (Range.between a.cell b.cell)).length - 1) =
      n + (rangeOperands limit (Range.between a.cell b.cell)).length := by omega
  refine ⟨s', ⟨by rwa [Arg.text], hquote, hlimit', ?_, ?_, [], true, ?_, hout, .inl rfl⟩⟩
  · rwa [Arg.ranges]
  · rw [Arg.tokens]
    exact counted_rangeOperands _ _
  · rw [hedit, hstack, editCall, hcount, Arg.count]
    rfl

/-- Reading arguments and the parenthesis that closes them puts out their tokens
    and the token of the call, and replaces their ranges. A call that is not marked has
    seen one argument only. -/
def ConvertsArgs (limit : Nat) (args : Args) : Prop :=
  ∀ (s : Converter) (name : String) (n : Nat) (counted : Bool) (mark : Nat) (st : List Pending),
    s.rangeLimit = limit → AtOperand s → s.stack = .call name (n + 1) counted mark :: st →
      mark ≤ s.output.length → (counted = true ∨ n = 0) →
        ∃ (s' : Converter) (ts : List Token), Reads s (args.text ++ [')']) s' ∧
          ts.map Token.counted = args.tokens limit ++ [.call name (n + args.count limit)] ∧
            AfterOperand s' ∧ s'.rangeLimit = limit ∧ s'.run = [] ∧
              s'.ranges = args.ranges.reverse ++ s.ranges ∧ s'.stack = st ∧
                s'.output = ts.reverse ++ s.output

/-- The last argument and the closing parenthesis. -/
theorem convertsArgs_last {limit : Nat} {a : Arg} (ha : ConvertsArg limit a) :
    ConvertsArgs limit (.last a) := by
  intro s name n counted mark st hlimit h hstack hmark hcounted
  rcases ha s name n counted mark st hlimit h hstack with
    ⟨s', ts, hreads, hquote, hlimit', hranges, hts, ops, counted', hflush, hout, hcounted'⟩
  have hlength : 0 < ts.length := by
    have hpos := List.length_pos_iff.2 (Arg.tokens_ne_nil limit a)
    rw [← hts, List.length_map] at hpos
    exact hpos
  rcases closed_frame hquote hflush rfl with ⟨hafter, hlimit'', hrun, hranges', hst, hout'⟩
  refine ⟨s'.feed ')', ts ++ [callToken name (n + a.count limit) counted' mark
    (ts.reverse ++ s.output)], ?_, ?_, hafter, hlimit''.trans hlimit', hrun, ?_, hst, ?_⟩
  · rw [Args.text]
    exact hreads.append (.single hquote (by decide))
  · rw [List.map_append, hts, Args.tokens, Args.count]
    congr 1
    rw [List.map_singleton, counted_callToken]
    -- A call that is not marked has one argument, and that has put out a token.
    rcases hcounted' with rfl | ⟨rfl, hone⟩
    · exact .inl rfl
    · rcases hcounted with rfl | rfl
      · exact .inl rfl
      · refine .inr ⟨by omega, ?_⟩
        rw [List.length_append, List.length_reverse]
        omega
  · rw [hranges', hranges, Args.ranges]
  · rw [hout', hout]
    simp

/-- An argument and the comma after it, which counts one argument more and marks
    the call. -/
theorem convertsArgs_more {limit : Nat} {a : Arg} {rest : Args} (ha : ConvertsArg limit a)
    (hrest : ConvertsArgs limit rest) : ConvertsArgs limit (.more a rest) := by
  intro s name n counted mark st hlimit h hstack hmark hcounted
  rcases ha s name n counted mark st hlimit h hstack with
    ⟨s', ts, hreads, hquote, hlimit', hranges, hts, ops, counted', hflush, hout, -⟩
  -- The comma puts out all operators down to the call, counts one more and marks it.
  have hcomma : s'.comma = { s'.flush with
      stack := .call name (n + a.count limit + 1) true mark :: st
      output := ts.reverse ++ s.output, rangeStart := none } := by
    simp only [comma, hflush, popOps_ops, popOps, hout, countArgument]
  have hat : AtOperand (s'.feed ',') := by
    rw [feed_comma, hcomma]
    exact ⟨by simpa using hquote, by simp, rfl, rfl⟩
  rcases hrest (s'.feed ',') name (n + a.count limit) true mark st (by
      rw [feed_comma, hcomma]
      simpa using hlimit') hat (by rw [feed_comma, hcomma]) (by
      rw [feed_comma, hcomma]
      simp only [List.length_append]
      omega) (.inl rfl) with ⟨t, us, hreads', hus, hafter, hlimit'', hrun, hranges', hst, hout'⟩
  refine ⟨t, ts ++ us, ?_, ?_, hafter, hlimit'', hrun, ?_, hst, ?_⟩
  · have hall := hreads.append ((Reads.single hquote (c := ',') (by decide)).append hreads')
    rw [Args.text]
    simpa using hall
  · rw [List.map_append, hts, hus, Args.tokens, Args.count]
    simp [Nat.add_assoc]
  · rw [hranges', feed_comma, hcomma, Args.ranges, List.reverse_append, List.append_assoc,
      ← hranges]
  · rw [hout', feed_comma, hcomma]
    simp

/-- A call closes after its arguments. -/
theorem closes_call {limit : Nat} (name : Name) {args : Args} (hargs : ConvertsArgs limit args) :
    Closes limit name.chars args.text
      (args.tokens limit ++ [.call name.text (args.count limit)]) args.ranges := by
  intro s st hlimit h hstack
  rw [frame_name] at hstack
  rcases hargs s name.text 0 false s.output.length st hlimit h hstack (Nat.le_refl _) (.inr rfl)
    with ⟨s', ts, hreads, hts, hrest⟩
  rw [Nat.zero_add] at hts
  exact ⟨s', ts, hreads, hts, hrest⟩

/-! ## Trees -/

mutual

/-- Every formula converts, at every level. -/
theorem converts_text (limit level : Nat) :
    (e : Expr) → Converts limit level (e.text level) (e.tokens limit) e.ranges
  | .atom a => by
    rw [Expr.text, Expr.tokens, Expr.ranges]
    exact converts_atom limit level a
  | .binary op a b => by
    have hbody := converts_binary (converts_text limit op.precedence a)
      (converts_text limit (op.precedence + 1) b) (Expr.starts_text _ b)
    rw [Expr.text, Expr.tokens, Expr.ranges]
    by_cases hlevel : op.precedence < level
    · rw [if_pos hlevel]
      exact converts_paren level hbody
    · rw [if_neg hlevel]
      exact hbody.weaken (Nat.le_of_not_lt hlevel)
  | .callEmpty name many => by
    rw [Expr.text, Expr.tokens, Expr.ranges]
    exact (closes_callEmpty limit name many).converts level name.gathered
  | .call name args => by
    rw [Expr.text, Expr.tokens, Expr.ranges]
    exact (closes_call name (convertsArgs args)).converts level name.gathered

/-- All arguments convert. -/
theorem convertsArgs {limit : Nat} : (args : Args) → ConvertsArgs limit args
  | .last a => convertsArgs_last (convertsArg a)
  | .more a rest => convertsArgs_more (convertsArg a) (convertsArgs rest)

/-- Every argument converts. -/
theorem convertsArg {limit : Nat} : (a : Arg) → ConvertsArg limit a
  | .value e => fun _ _ _ _ _ _ hlimit h hstack =>
    readsArgument_value (converts_text limit 0 e) h hlimit hstack
  | .range a b => fun _ _ _ _ _ _ hlimit h hstack =>
    (readsArgument_range limit a b h hlimit hstack).imp fun _ h => ⟨_, h⟩

end

/-- What is left of a text that converts when it stands alone: outside quotes, its
    ranges replaced, and with the operators that still wait its tokens put out. -/
theorem Converts.read_alone {limit level : Nat} {cs : List Char} {ts : List Token}
    {rs : List Range} (h : Converts limit level cs ts rs) :
    let s := ({ rangeLimit := limit } : Converter).read cs
    s.quote = none ∧ s.flush.ranges = rs.reverse ∧
      ∃ (ops : List Operator) (ts' : List Token), ts'.map Token.counted = ts ∧
        s.flush.stack = ops.map .op ∧
          (ops.map Token.op).reverse ++ s.flush.output = ts'.reverse := by
  have hat : AtOperand { rangeLimit := limit } := ⟨rfl, rfl, rfl, rfl⟩
  rcases h { rangeLimit := limit } rfl hat (fun o ps h => by simp at h) with
    ⟨s, ts', hreads, hts, hafter, -, hranges, ops, kept, -, hmarks, hstack, hout⟩
  -- Nothing was on the stack, so only operators of the formula are left to put out.
  have hkept : kept = [] := by rcases hmarks with rfl | rfl <;> rfl
  have hread : ({ rangeLimit := limit } : Converter).read cs = s := by
    have := hreads []
    simpa [read] using this
  rw [hkept, List.append_nil] at hstack
  rw [List.append_nil] at hranges hout
  rw [hread]
  exact ⟨hafter.quote, hranges, ops, ts', hts, hstack, hout⟩

/-- A text that converts becomes its tokens when it stands alone. -/
theorem Converts.postfixOf_counted {limit level : Nat} {cs : List Char} {ts : List Token}
    {rs : List Range} (h : Converts limit level cs ts rs) :
    (postfixOf limit cs).map Token.counted = ts := by
  rcases h.read_alone with ⟨hquote, -, ops, ts', hts, hstack, hout⟩
  unfold postfixOf finish
  simp only [hquote, hstack, drain_ops, hout, List.reverse_reverse, hts]

/-- A text that converts replaces its ranges when it stands alone. -/
theorem Converts.expandedRanges {limit level : Nat} {cs : List Char} {ts : List Token}
    {rs : List Range} (h : Converts limit level cs ts rs) :
    expandedRanges limit cs = rs.reverse := by
  rcases h.read_alone with ⟨hquote, hranges, -⟩
  unfold Formula.expandedRanges
  rw [if_pos hquote, hranges]

/-- A whole text becomes the post-order of its tree. -/
theorem postfixOf_counted (limit : Nat) (e : Expr) :
    (postfixOf limit (e.text 0)).map Token.counted = e.tokens limit :=
  (converts_text limit 0 e).postfixOf_counted

/-- The ranges that a whole text replaces are those of its tree. -/
theorem expandedRanges_text (limit : Nat) (e : Expr) :
    expandedRanges limit (e.text 0) = e.ranges.reverse :=
  (converts_text limit 0 e).expandedRanges

end Converter

end Formula

end Worksheet
