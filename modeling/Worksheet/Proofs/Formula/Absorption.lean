import Worksheet.Proofs.Formula.Converter

/-!
# Absorbing Operands

What the converter has taken in once it has read an operand.

After the text of a subtree, the run may not have ended and operators of the
subtree may still wait, because the converter cannot know yet that the operand is
complete. `Absorbs` therefore describes the state as it will be once the run ends:
above what was on the stack there are only operators of at least a level, the
output with those operators put on it is the output from before with the tokens of
the subtree, and the ranges of the subtree have been replaced. Whatever comes next,
be it a looser operator, a comma, a parenthesis or the end of the text, puts out
exactly those operators.

What was on the stack is not quite unchanged: a comparison marks the innermost
call so that its arguments are counted. Marking changes no name and no count,
and the marked call closes to the same token once functions and calls are not
told apart.

## Main definitions

* `AtOperand`, `AfterOperand`: The two positions around an operand.
* `Absorbs`: Some tokens are all but put out.

## Theorems

* `read_operator`: An operator after an operand is read in full.
* `absorbs_run`, `absorbs_quoted`: The two kinds of leaf.
* `Absorbs.operate`: An operator finds its left operand in the output.
* `closed_frame`: A closing parenthesis puts out everything down to its frame.
-/

namespace Worksheet

namespace Formula

namespace Converter

/-! ## Operands and operators -/

/-- An operand comes next. -/
structure AtOperand (s : Converter) : Prop where
  quote : s.quote = none
  run : s.run = []
  rangeStart : s.rangeStart = none
  expects : s.expectsOperand = true

/-- An operand has just been read, though it may still be in the run. -/
structure AfterOperand (s : Converter) : Prop where
  quote : s.quote = none
  run : s.run ≠ ['-']
  rangeStart : s.rangeStart = none
  expects : s.expectsOperand = false

/-- The state after an operator that follows an operand. -/
def operate (s : Converter) (op : Operator) : Converter :=
  { (if op.isComparison then s.compareWith op else s.flush.pushOp op) with
    previous := op.symbol.toList.head? }

/-- The last character of an operand is not the operator that turns the next one
    into text. -/
theorem AfterOperand.previous_ne {s : Converter} (h : AfterOperand s) : s.previous ≠ some '&' := by
  intro hp
  have := h.expects
  simp [expectsOperand, hp] at this

/-- An operator of one character puts out the tighter ones and waits. -/
theorem feed_operator {s : Converter} (h : AfterOperand s) {c : Char} {op : Operator}
    (hc : operatorOf? c = some op) : s.feed c = { s.flush.pushOp op with previous := some c } := by
  have hp := h.previous_ne
  have he := h.expects
  have hr := h.run
  -- The comparisons are not read one character at a time, so five operators are left.
  have hmem : c = '+' ∨ c = '-' ∨ c = '*' ∨ c = '/' ∨ c = '&' := by
    unfold operatorOf? at hc
    grind
  unfold feed
  rw [hc]
  rcases hmem with rfl | rfl | rfl | rfl | rfl <;> simp [hp, he, hr, Text.isLetter, Text.isDigit]

/-- An operator after an operand is read in full, unless what follows makes it
    longer. -/
theorem read_operator {s : Converter} (h : AfterOperand s) (op : Operator) {rest : List Char}
    (h1 : rest.head? ≠ some '=') (h2 : rest.head? ≠ some '>') :
    s.read (op.symbol.toList ++ rest) = (s.operate op).read rest := by
  have single {c : Char} (hs : op.symbol.toList = [c]) (hc : operatorOf? c = some op)
      (hne : c ≠ '<' ∧ c ≠ '>' ∧ c ≠ '=') (ho : op.isComparison = false) :
      s.read (op.symbol.toList ++ rest) = (s.operate op).read rest := by
    rw [hs, List.singleton_append, read_cons h.quote hne, feed_operator h hc, operate, ho, hs]
    rfl
  cases op with
  | add => exact single rfl rfl (by decide) rfl
  | sub => exact single rfl rfl (by decide) rfl
  | mul => exact single rfl rfl (by decide) rfl
  | div => exact single rfl rfl (by decide) rfl
  | concat => exact single rfl rfl (by decide) rfl
  -- A comparison looks at the character after it, which must not make it a longer one.
  | _ =>
    cases rest with
    | nil =>
      simp [read, h.quote, operate, Operator.isComparison, Operator.precedence, Operator.symbol]
    | cons d ds =>
      simp at h1 h2
      simp [read, h.quote, operate, Operator.isComparison, Operator.precedence, Operator.symbol, h1,
        h2]

/-- A minus sign where an operand is expected goes into the run. -/
theorem reads_sign {s : Converter} (h : AtOperand s) (negative : Bool) :
    Reads s (signChars negative)
      { s with run := signChars negative
               previous := if negative then some '-' else s.previous } := by
  intro rest
  cases negative with
  | false =>
    have hs : ({ s with run := [] } : Converter) = s := by rw [← h.run]
    simp [signChars, hs]
  | true =>
    rw [signChars, if_pos rfl, List.singleton_append, read_cons h.quote (by decide)]
    simp [feed, h.run, h.expects, Text.isLetter, Text.isDigit]

/-- An operand of gathered characters is in the run once it is read. -/
theorem reads_operand {s : Converter} (h : AtOperand s) (negative : Bool) {cs : List Char}
    (hne : cs ≠ []) (hcs : ∀ c ∈ cs, isGathered c = true) :
    Reads s (signChars negative ++ cs)
      { s with run := (signChars negative ++ cs.map Text.upper).reverse
               previous := some (cs.getLast hne) } := by
  have hreads := (reads_sign h negative).append (reads_gathered (by exact h.quote) hcs)
  have hlast : cs.getLast? = some (cs.getLast hne) := List.getLast?_eq_some_getLast hne
  have hsign : (signChars negative).reverse = signChars negative := by cases negative <;> rfl
  simpa [hlast, hsign] using hreads

/-! ## Absorbing tokens -/

/-- The stack, with its innermost call perhaps marked as counted. -/
def Marks (st st' : List Pending) : Prop := st' = st ∨ st' = editCall id st

/-- Marking twice is marking. -/
theorem Marks.trans {st st' st'' : List Pending} (h : Marks st st') (h' : Marks st' st'') :
    Marks st st'' := by
  rcases h with rfl | rfl
  · exact h'
  · rcases h' with rfl | rfl
    · exact .inr rfl
    · exact .inr (editCall_id_id st)

/-- Marking passes over an operator. -/
theorem Marks.of_op {op : Operator} {st st' : List Pending} (h : Marks (.op op :: st) st') :
    ∃ st'', st' = .op op :: st'' ∧ Marks st st'' := by
  rcases h with rfl | rfl
  · exact ⟨st, rfl, .inl rfl⟩
  · exact ⟨editCall id st, rfl, .inr rfl⟩

/-- Marking puts no operator on top. -/
theorem StopsBelow.marks {level : Nat} {st st' : List Pending} (h : StopsBelow level st)
    (hm : Marks st st') : StopsBelow level st' := by
  rcases hm with rfl | rfl
  · exact h
  · intro o ps heq
    cases st with
    | nil => simp [editCall] at heq
    | cons p qs =>
      cases p with
      | op o' =>
        simp only [editCall, List.cons.injEq, Pending.op.injEq] at heq
        exact heq.1 ▸ h o' qs rfl
      -- Neither a parenthesis nor a call becomes an operator.
      | paren => simp [editCall] at heq
      | call name args counted mark => simp [editCall] at heq

/-- Once the run ends, operators of at least a level stand above what was on the
    stack, with them the output has gained the tokens, and the ranges are among
    those that were replaced. -/
structure Absorbs (level : Nat) (ts : List Token) (rs : List Range) (s s' : Converter) : Prop where
  after : AfterOperand s'
  rangeLimit : s'.rangeLimit = s.rangeLimit
  ranges : s'.flush.ranges = rs.reverse ++ s.ranges
  settled : ∃ (ops : List Operator) (kept : List Pending), (∀ o ∈ ops, level ≤ o.precedence) ∧
    Marks s.stack kept ∧ s'.flush.stack = ops.map .op ++ kept ∧
      (ops.map Token.op).reverse ++ s'.flush.output = ts.reverse ++ s.output

/-- Operators of a level are also of a looser one. -/
theorem Absorbs.weaken {low high : Nat} {ts : List Token} {rs : List Range} {s s' : Converter}
    (hle : low ≤ high) (h : Absorbs high ts rs s s') : Absorbs low ts rs s s' := by
  rcases h with ⟨hafter, hlimit, hranges, ops, kept, hops, hrest⟩
  exact ⟨hafter, hlimit, hranges, ops, kept, fun o ho => Nat.le_trans hle (hops o ho), hrest⟩

/-- A state with nothing in the run and nothing on the stack has put out
    everything. -/
theorem Absorbs.of_closed {level : Nat} {ts : List Token} {rs : List Range} {s s' : Converter}
    (ha : AfterOperand s') (hlimit : s'.rangeLimit = s.rangeLimit) (hrun : s'.run = [])
    (hranges : s'.ranges = rs.reverse ++ s.ranges) (hstack : s'.stack = s.stack)
    (hout : s'.output = ts.reverse ++ s.output) : Absorbs level ts rs s s' := by
  refine ⟨ha, hlimit, ?_, [], s.stack, by simp, .inl rfl, ?_, ?_⟩
  · rw [flush_of_run_nil hrun, hranges]
  · rw [flush_of_run_nil hrun, hstack]
    rfl
  · rw [flush_of_run_nil hrun, hout]
    rfl

/-- A signed run is absorbed as one operand. -/
theorem absorbs_run {s : Converter} (h : AtOperand s) (level : Nat) (negative : Bool)
    {cs : List Char} (hne : cs ≠ []) (hcs : ∀ c ∈ cs, isGathered c = true) :
    ∃ s', Reads s (signChars negative ++ cs) s' ∧
      Absorbs level [.operand (String.ofList (signChars negative ++ cs.map Text.upper))] [] s
        s' := by
  -- The last character decides what the converter expects next.
  have hgathered := hcs _ (List.getLast_mem hne)
  refine ⟨_, reads_operand h negative hne hcs, ⟨h.quote, ?_, h.rangeStart,
    expectsOperand_gathered rfl hgathered⟩, rfl, ?_, [], s.stack, by simp, .inl rfl, ?_, ?_⟩
  -- The run is not a lone sign, because something was gathered after the sign.
  · intro hrun
    have hmem : Text.upper (cs.getLast hne) ∈
      (signChars negative ++ cs.map Text.upper).reverse := by
      rw [List.mem_reverse, List.mem_append]
      exact .inr (List.mem_map_of_mem (List.getLast_mem hne))
    simp only at hrun
    rw [hrun, List.mem_singleton] at hmem
    exact upper_ne_minus hgathered hmem
  · rw [flush_of_rangeStart_none (by simp [hne]) (by exact h.rangeStart)]
    rfl
  · rw [flush_of_rangeStart_none (by simp [hne]) (by exact h.rangeStart)]
    rfl
  · rw [flush_of_rangeStart_none (by simp [hne]) (by exact h.rangeStart)]
    simp

/-- Quoted characters are kept until the quote is closed. -/
theorem reads_body {s : Converter} {read body : List Char} (hq : s.quote = some read)
    (hb : '"' ∉ body) : Reads s body { s with quote := some (body.reverse ++ read) } := by
  induction body generalizing s read with
  | nil =>
    intro rest
    have hs : ({ s with quote := some read } : Converter) = s := by rw [← hq]
    simp [hs]
  | cons c cs ih =>
    intro rest
    have hc : c ≠ '"' := fun h => hb (by simp [h])
    have hstep : s.feedQuoted read c = { s with quote := some (c :: read) } := by
      simp [feedQuoted, hc]
    have hquote : (s.feedQuoted read c).quote = some (c :: read) := by rw [hstep]
    have hrest := ih hquote (fun h => hb (by simp [h])) rest
    rw [List.cons_append, read_quoted hq, hrest, hstep]
    simp

/-- A quoted text is absorbed as one token. -/
theorem absorbs_quoted {s : Converter} (h : AtOperand s) (level : Nat) {body : List Char}
    (hb : '"' ∉ body) :
    ∃ s', Reads s ('"' :: body ++ ['"']) s' ∧
      Absorbs level [.quoted (String.ofList body)] [] s s' := by
  -- Three pieces: the quote opens, the body is kept, and the quote closes.
  have hopen : Reads s ['"'] { s with quote := some [], previous := some '"' } := by
    intro rest
    rw [List.singleton_append, read_cons h.quote (by decide)]
    simp [feed, flush_of_run_nil h.run]
  have hclose (s' : Converter) (read : List Char) (hq : s'.quote = some read) :
      Reads s' ['"'] { s'.put (.quoted (String.ofList read.reverse)) with quote := none } := by
    intro rest
    rw [List.singleton_append, read_quoted hq]
    simp [feedQuoted]
  have hreads := (hopen.append (reads_body (by rfl) hb)).append (hclose _ _ (by rfl))
  refine ⟨_, hreads, ⟨rfl, ?_, h.rangeStart, by simp [expectsOperand, put]⟩, rfl, ?_, [], s.stack,
    by simp, .inl rfl, ?_, ?_⟩
  · simp [put, h.run]
  · rw [flush_of_run_nil (by exact h.run)]
    rfl
  · rw [flush_of_run_nil (by exact h.run)]
    rfl
  · rw [flush_of_run_nil (by exact h.run)]
    simp [put]

/-- An operator of the level finds its left operand complete: the operators of
    the operand go out, and it waits alone above what was there. -/
theorem Absorbs.operate {level : Nat} {ts : List Token} {rs : List Range} {s s' : Converter}
    {op : Operator} (h : Absorbs level ts rs s s') (hlevel : op.precedence = level)
    (hst : StopsBelow level s.stack) :
    AtOperand (s'.operate op) ∧ (s'.operate op).rangeLimit = s.rangeLimit ∧
      (s'.operate op).ranges = rs.reverse ++ s.ranges ∧
      (∃ kept, (s'.operate op).stack = .op op :: kept ∧ Marks s.stack kept) ∧
      (s'.operate op).output = ts.reverse ++ s.output := by
  subst hlevel
  rcases h with ⟨hafter, hlimit, hranges, ops, kept, hops, hmarks, hstack, hout⟩
  -- The operand's operators bind tighter and go out, and what was below them stops the popping.
  have hpop : s'.flush.pushOp op =
    { s'.flush with stack := .op op :: kept, output := ts.reverse ++ s.output } := by
    unfold pushOp
    rw [hstack, popTighter_ops _ hops (hst.marks hmarks), hout]
  have hat {t : Converter} (hq : t.quote = none) (hr : t.run = []) (hs : t.rangeStart = none)
      (hp : t.previous = op.symbol.toList.head?) : AtOperand t :=
    ⟨hq, hr, hs, by rw [expectsOperand, hp]; cases op <;> rfl⟩
  have hquote : s'.flush.quote = none := by rw [flush_quote, hafter.quote]
  have hstart := flush_rangeStart hafter.rangeStart
  unfold Converter.operate compareWith
  rw [hpop]
  by_cases hc : op.isComparison = true
  · rw [if_pos hc]
    exact ⟨hat hquote (flush_run s') hstart rfl, by simpa using hlimit, hranges,
      ⟨editCall id kept, rfl, hmarks.trans (.inr rfl)⟩, rfl⟩
  · rw [if_neg hc]
    exact ⟨hat hquote (flush_run s') hstart rfl, by simpa using hlimit, hranges,
      ⟨kept, rfl, hmarks⟩, rfl⟩

/-- A closing parenthesis ends the run and puts out everything down to its
    frame. -/
theorem closed_frame {s : Converter} {ops : List Operator} {frame : Pending} {st : List Pending}
    {out : List Token} (hq : s.quote = none) (hstack : s.flush.stack = ops.map .op ++ frame :: st)
    (hout : closeFrame (frame :: st) ((ops.map Token.op).reverse ++ s.flush.output) = (st, out)) :
    AfterOperand (s.feed ')') ∧ (s.feed ')').rangeLimit = s.rangeLimit ∧ (s.feed ')').run = [] ∧
      (s.feed ')').ranges = s.flush.ranges ∧ (s.feed ')').stack = st ∧
        (s.feed ')').output = out := by
  have hclose : s.closeParen = { s.flush with stack := st, output := out, rangeStart := none } := by
    simp only [closeParen, hstack, closeFrame_ops, hout]
  rw [feed_close, hclose]
  refine ⟨⟨?_, ?_, rfl, rfl⟩, ?_, ?_, rfl, rfl, rfl⟩
  · simpa using hq
  · simp
  · simp
  · simp

end Converter

end Formula

end Worksheet
