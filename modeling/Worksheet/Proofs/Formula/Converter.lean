import Worksheet.Proofs.Formula.Leaf

/-!
# Steps of the Converter

What one character does to the state of the conversion, and what ending a run
and emptying the stack do.

Reading looks one character ahead only after a comparison, so a text that is
read to some state is read there whatever follows it. `Reads` says exactly
that, and lets the reading of a formula be put together from the readings of
its parts.

The stack is described by the operators above a frame. Every operation that
empties it passes over operators in the same way, so one lemma per operation
brings the frame to the top: what was above it is in the output, the innermost
operator first.

## Main definitions

* `Reads`: A text takes one state to another, whatever follows it.
* `Corners`: The corners of a range that ends.
* `StopsBelow`: What an operator of a level stops at.
* `factorSign`, `frame`, `openFrame`: The two halves of an opening parenthesis.

## Theorems

* `reads_gathered`: A gathered text goes into the run.
* `flush_of_rangeStart_none`, `flush_of_rangeStart_some`: The end of a run.
* `expandRange_corners`, `expandRange_of_not_corners`: The end of a range.
* `popTighter_ops`, `popOps_ops`, `closeFrame_ops`, `drain_ops`: Passing over
  operators.
* `counted_callToken`: The number of arguments in the token of a call.
* `openParen_eq`: What an opening parenthesis does after a run.
-/

namespace Worksheet

namespace Formula

namespace Converter

/-! ## Characters -/

/-- Outside quotes, a character that begins no comparison is read alone. -/
theorem read_cons {s : Converter} {c : Char} {cs : List Char} (hq : s.quote = none)
    (hc : c ≠ '<' ∧ c ≠ '>' ∧ c ≠ '=') : s.read (c :: cs) = (s.feed c).read cs := by
  rw [read, hq]
  split <;> simp_all

/-- Inside quotes, every character is read alone. -/
theorem read_quoted {s : Converter} {body cs : List Char} {c : Char} (hq : s.quote = some body) :
    s.read (c :: cs) = (s.feedQuoted body c).read cs := by
  rw [read, hq]

theorem feed_paren (s : Converter) : s.feed '(' = { s.openParen with previous := some '(' } := by
  simp [feed, Text.isLetter, Text.isDigit, operatorOf?]

theorem feed_close (s : Converter) : s.feed ')' = { s.closeParen with previous := some ')' } := by
  simp [feed, Text.isLetter, Text.isDigit, operatorOf?]

theorem feed_comma (s : Converter) : s.feed ',' = { s.comma with previous := some ',' } := by
  simp [feed, Text.isLetter, Text.isDigit, operatorOf?]

theorem feed_colon (s : Converter) : s.feed ':' = { s.colon with previous := some ':' } := by
  simp [feed, Text.isLetter, Text.isDigit, operatorOf?]

/-- A gathered character goes into the run. -/
theorem feed_gathered {s : Converter} {c : Char} (hc : isGathered c = true) :
    s.feed c = { s with run := Text.upper c :: s.run, previous := some c } := by
  have h := isGathered_iff.1 hc
  unfold feed
  -- Words go into the run in capitals, and so does everything else, which has no capitals.
  by_cases hl : (Text.isLetter c || Text.isDigit c || c == '.') = true
  · simp [h, hl]
  · have hn : Text.isLetter c = false := by
      simp only [Bool.or_eq_true, not_or] at hl
      simpa using hl.1.1
    simp [h, hl, operatorOf?, Text.upper_of_not_isLetter hn]

/-- After a gathered character no operand is expected. -/
theorem expectsOperand_gathered {s : Converter} {c : Char} (hp : s.previous = some c)
    (hc : isGathered c = true) : s.expectsOperand = false := by
  have h := isGathered_iff.1 hc
  simp [expectsOperand, hp, h]

/-- Reading a text takes one state to another, whatever follows the text. -/
def Reads (s : Converter) (cs : List Char) (s' : Converter) : Prop :=
  ∀ rest, s.read (cs ++ rest) = s'.read rest

/-- Readings one after the other. -/
theorem Reads.append {s s' s'' : Converter} {cs cs' : List Char} (h : Reads s cs s')
    (h' : Reads s' cs' s'') : Reads s (cs ++ cs') s'' := by
  intro rest
  rw [List.append_assoc, h, h']

/-- The reading of one character. -/
theorem Reads.single {s : Converter} {c : Char} (hq : s.quote = none)
    (hc : c ≠ '<' ∧ c ≠ '>' ∧ c ≠ '=') : Reads s [c] (s.feed c) :=
  fun _ => read_cons hq hc

/-- A gathered text goes into the run. -/
theorem reads_gathered {s : Converter} (hq : s.quote = none) {cs : List Char}
    (hcs : ∀ c ∈ cs, isGathered c = true) :
    Reads s cs { s with run := (cs.map Text.upper).reverse ++ s.run
                        previous := cs.getLast?.or s.previous } := by
  induction cs generalizing s with
  | nil => intro rest; simp
  | cons c cs ih =>
    have hc := isGathered_iff.1 (hcs c (by simp))
    have hstep : Reads s [c] { s with run := Text.upper c :: s.run, previous := some c } := by
      rw [← feed_gathered (hcs c (by simp))]
      exact .single hq (by simp [hc])
    have hlast : (c :: cs).getLast?.or s.previous = cs.getLast?.or (some c) := by
      cases cs <;> simp [List.getLast?_cons]
    have hall := hstep.append (ih hq fun d hd => hcs d (by simp [hd]))
    simpa [hlast] using hall

/-! ## The end of a run -/

theorem flush_of_run_nil {s : Converter} (h : s.run = []) : s.flush = s := by
  simp [flush, h]

/-- A run outside a range becomes an operand. -/
theorem flush_of_rangeStart_none {s : Converter} (h : s.run ≠ []) (hr : s.rangeStart = none) :
    s.flush =
      { s with run := [], output := .operand (String.ofList s.run.reverse) :: s.output } := by
  simp [flush, h, hr, put]

/-- A run inside a range becomes an operand, and then the range ends. -/
theorem flush_of_rangeStart_some {s : Converter} {start : Nat} (h : s.run ≠ [])
    (hr : s.rangeStart = some start) :
    s.flush = ({ s with run := [], rangeStart := none,
                        output := .operand (String.ofList s.run.reverse) :: s.output } :
      Converter).expandRange start := by
  unfold flush
  rw [if_neg h, hr]
  rfl

/-- At the end of a range, the two references at the end of the output are
    replaced by the cells between them. -/
theorem expandRange_pair {s : Converter} {a b : String} {x y : CellRef} {out : List Token}
    (hout : s.output = .operand b :: .operand a :: out) (ha : CellRef.ofText? a = some x)
    (hb : CellRef.ofText? b = some y) :
    s.expandRange out.length =
      { s with
        output := (rangeOperands s.rangeLimit (Range.between x y)).reverse ++ out
        stack := editCall
          (fun n => n + ((rangeOperands s.rangeLimit (Range.between x y)).length - 1)) s.stack
        ranges := Range.between x y :: s.ranges } := by
  unfold expandRange
  rw [hout]
  simp only [if_true, ha, hb, rangeTokens_eq]

/-- The corners of a range that ends: two operands that spell cells, on top of what
    had been put out before the range was opened. -/
inductive Corners (start : Nat) : List Token → CellRef → CellRef → List Token → Prop where
  | mk {a b : String} {x y : CellRef} {out : List Token} (hstart : out.length = start)
    (ha : CellRef.ofText? a = some x) (hb : CellRef.ofText? b = some y) :
    Corners start (.operand b :: .operand a :: out) x y out

theorem expandRange_corners {start : Nat} {s : Converter} {x y : CellRef} {out : List Token}
    (h : Corners start s.output x y out) :
    s.expandRange start =
      { s with
        output := (rangeOperands s.rangeLimit (Range.between x y)).reverse ++ out
        stack := editCall
          (fun n => n + ((rangeOperands s.rangeLimit (Range.between x y)).length - 1)) s.stack
        ranges := Range.between x y :: s.ranges } := by
  generalize hout : s.output = ts at h
  cases h with
  | mk hstart ha hb =>
    subst hstart
    exact expandRange_pair hout ha hb

/-- Without corners there is no range to be replaced. -/
theorem expandRange_of_not_corners {start : Nat} {s : Converter}
    (h : ¬∃ x y out, Corners start s.output x y out) : s.expandRange start = s := by
  unfold expandRange
  split
  · rename_i b a out hout
    split
    · rename_i hstart
      split
      · rename_i x y ha hb
        have hcorners : Corners start s.output x y out := by
          rw [hout]
          exact .mk hstart ha hb
        exact absurd ⟨x, y, out, hcorners⟩ h
      · rfl
    · rfl
  · rfl

/-- The end of a range leaves what is still to be read as it was, and forgets no
    range. -/
theorem expandRange_frame (start : Nat) (s : Converter) :
    (s.expandRange start).run = s.run ∧ (s.expandRange start).quote = s.quote ∧
      (s.expandRange start).rangeLimit = s.rangeLimit ∧
      (s.expandRange start).rangeStart = s.rangeStart ∧
      s.ranges ⊆ (s.expandRange start).ranges := by
  by_cases hcorners : ∃ x y out, Corners start s.output x y out
  · rcases hcorners with ⟨x, y, out, hcorners⟩
    rw [expandRange_corners hcorners]
    exact ⟨rfl, rfl, rfl, rfl, List.subset_cons_self _ _⟩
  · rw [expandRange_of_not_corners hcorners]
    exact ⟨rfl, rfl, rfl, rfl, List.Subset.refl _⟩

@[simp] theorem flush_run (s : Converter) : s.flush.run = [] := by
  unfold flush
  split
  · assumption
  · dsimp only
    split
    · rw [(expandRange_frame _ _).1]
      rfl
    · rfl

@[simp] theorem flush_quote (s : Converter) : s.flush.quote = s.quote := by
  unfold flush
  split
  · rfl
  · dsimp only
    split
    · rw [(expandRange_frame _ _).2.1]
      rfl
    · rfl

@[simp] theorem flush_rangeLimit (s : Converter) : s.flush.rangeLimit = s.rangeLimit := by
  unfold flush
  split
  · rfl
  · dsimp only
    split
    · rw [(expandRange_frame _ _).2.2.1]
      rfl
    · rfl

/-- Outside a range, the end of a run opens none. -/
theorem flush_rangeStart {s : Converter} (h : s.rangeStart = none) : s.flush.rangeStart = none := by
  by_cases hr : s.run = []
  · rw [flush_of_run_nil hr, h]
  · rw [flush_of_rangeStart_none hr h]
    exact h

/-! ## The stack -/

/-- No operator that binds at least as tightly as a level is on top. -/
def StopsBelow (level : Nat) (st : List Pending) : Prop :=
  ∀ o ps, st = .op o :: ps → o.precedence < level

/-- An operator puts out the operators above a frame that bind at least as
    tightly, and stops below them. -/
theorem popTighter_ops {op : Operator} {ops : List Operator} {st : List Pending} (out : List Token)
    (hops : ∀ o ∈ ops, op.precedence ≤ o.precedence) (hst : StopsBelow op.precedence st) :
    popTighter op (ops.map .op ++ st) out = (st, (ops.map Token.op).reverse ++ out) := by
  induction ops generalizing out with
  | nil =>
    -- All operators above the frame are out: what is on top now binds too loosely or is none.
    cases st with
    | nil => rfl
    | cons p ps =>
      cases p with
      | op o => simp [popTighter, hst o ps rfl]
      | paren => rfl
      | call name args counted mark => rfl
  | cons o ops ih =>
    have ho := hops o (by simp)
    rw [List.map_cons, List.cons_append, popTighter, if_neg (by omega),
      ih _ fun p hp => hops p (by simp [hp])]
    simp

/-- A comma passes over operators. -/
theorem popOps_ops (ops : List Operator) (st : List Pending) (out : List Token) :
    popOps (ops.map .op ++ st) out = popOps st ((ops.map Token.op).reverse ++ out) := by
  induction ops generalizing out with
  | nil => rfl
  | cons o ops ih => simp [popOps, ih]

/-- A closing parenthesis passes over operators. -/
theorem closeFrame_ops (ops : List Operator) (st : List Pending) (out : List Token) :
    closeFrame (ops.map .op ++ st) out = closeFrame st ((ops.map Token.op).reverse ++ out) := by
  induction ops generalizing out with
  | nil => rfl
  | cons o ops ih => simp [closeFrame, ih]

/-- The end of the text puts out every operator. -/
theorem drain_ops (ops : List Operator) (out : List Token) :
    drain (ops.map .op) out = (ops.map Token.op).reverse ++ out := by
  induction ops generalizing out with
  | nil => rfl
  | cons o ops ih => simp [drain, ih]

/-- Marking a call twice is marking it once. -/
theorem editCall_id_id (st : List Pending) : editCall id (editCall id st) = editCall id st := by
  induction st with
  | nil => rfl
  | cons p ps ih => cases p <;> simp [editCall, ih]

/-- A closed call carries its number of arguments, if its arguments are counted,
    or if it has one and that put out a token. -/
theorem counted_callToken {name : String} {n : Nat} {counted : Bool} {mark : Nat}
    {out : List Token} (h : counted = true ∨ n = 1 ∧ mark < out.length) :
    (callToken name n counted mark out).counted = .call name n := by
  rcases h with rfl | ⟨rfl, hmark⟩
  · rfl
  · unfold callToken
    rw [if_pos hmark]
    split
    · rfl
    · split <;> rfl

/-! ## Opening parentheses -/

/-- A sign in front of a factor, which is turned into a product. -/
def factorSign (s : Converter) (negative : Bool) : Converter :=
  if negative then (s.put (.operand "-1")).pushOp .mul else s

/-- What waits after an opening parenthesis: a call if a name stands before it, and
    the parenthesis if nothing does. -/
def frame (name : List Char) (mark : Nat) : Pending :=
  if name = [] then .paren else .call (String.ofList name) 1 false mark

/-- Open a frame. -/
def openFrame (s : Converter) (name : List Char) : Converter :=
  { s with stack := frame name s.output.length :: s.stack }

/-- What an opening parenthesis does after a run: with the sign turned into a
    product, a call is opened if there is a name. -/
theorem openParen_eq {s : Converter} {negative : Bool} {body : List Char}
    (hrun : s.run = (signChars negative ++ body).reverse)
    (hbody : ∀ c ∈ body, isGathered c = true) :
    s.openParen = (({ s with run := [] } : Converter).factorSign negative).openFrame body := by
  have hreverse : s.run.reverse = signChars negative ++ body := by rw [hrun, List.reverse_reverse]
  unfold openParen openFrame frame factorSign
  rw [hreverse]
  cases negative with
  | true => cases body <;> rfl
  | false =>
    -- Without a name the parenthesis is a mere bracket.
    cases body with
    | nil =>
      have hempty : s.run = [] := by rw [hrun]; rfl
      simp [signChars, hempty]
    | cons c cs =>
      have hne : c ≠ '-' := by
        rintro rfl
        exact absurd (hbody '-' (by simp)) (by decide)
      simp only [signChars, Bool.false_eq_true, if_false, List.nil_append]
      split <;> simp_all

end Converter

end Formula

end Worksheet
