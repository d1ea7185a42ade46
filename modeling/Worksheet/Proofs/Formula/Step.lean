import Worksheet.Proofs.Formula.Body
import Worksheet.Proofs.Formula.Converter

/-!
# Single Characters

What the converter does with one character, apart from how it decides it.

Reading a character is a long chain of cases, and most of what is said about
it is about the outcome only: which part of the state changes, whether the run
ends, what is left of it. So the chain is taken apart into the choice of a
step, which depends on four facts about the state, and the steps themselves.
There are eleven steps, and a statement about reading a character is one case
for each.

A comparison is read with the character after it in view, so it stands beside
the steps.

## Main definitions

* `Step`, `perform`: The steps.
* `stepOf`: The step that a character takes.
* `Step.Cause`: What a step says about the character.
* `comparison`, `compared`, `afterComparison`: Reading a comparison.

## Theorems

* `feed_eq_perform`: Reading a character is doing its step.
* `stepOf_cause`: Every step has its cause.
* `read_comparison`: Reading a comparison.
* `ranges_read`: Ranges that were replaced are kept to the end.
-/

namespace Worksheet

namespace Formula

namespace Converter

/-- The end of a run forgets no range. -/
theorem ranges_flush (s : Converter) : s.ranges ⊆ s.flush.ranges := by
  by_cases hrun : s.run = []
  · rw [flush_of_run_nil hrun]
    exact List.Subset.refl _
  · cases hstart : s.rangeStart with
    | none =>
      rw [flush_of_rangeStart_none hrun hstart]
      exact List.Subset.refl _
    | some start =>
      rw [flush_of_rangeStart_some hrun hstart]
      refine List.Subset.trans ?_ (expandRange_frame start _).2.2.2.2
      exact List.Subset.refl _

/-- An opening parenthesis leaves no run, and everything that is not output or
    stack as it was. -/
theorem openParen_frame (s : Converter) :
    s.openParen.rangeLimit = s.rangeLimit ∧ s.openParen.quote = s.quote ∧ s.openParen.run = [] ∧
      s.openParen.ranges = s.ranges := by
  unfold openParen
  split
  · rename_i h
    exact ⟨rfl, rfl, by simpa using h, rfl⟩
  · simp only
    split
    · exact ⟨rfl, rfl, rfl, rfl⟩
    · exact ⟨rfl, rfl, rfl, rfl⟩
  · exact ⟨rfl, rfl, rfl, rfl⟩

/-- A colon ends the run and changes nothing else but where a range starts. -/
theorem colon_frame (s : Converter) :
    s.colon.rangeLimit = s.rangeLimit ∧ s.colon.quote = s.quote ∧ s.colon.run = [] ∧
      s.colon.ranges = s.flush.ranges := by
  unfold colon
  simp only
  split
  · exact ⟨flush_rangeLimit s, flush_quote s, flush_run s, rfl⟩
  · exact ⟨flush_rangeLimit s, flush_quote s, flush_run s, rfl⟩

/-! ## The step of a character -/

/-- What reading a character outside quotes can do. -/
inductive Step where
  | skip
  | quote
  | gather (c : Char)
  | cancel
  | sign
  | spell
  | operate (op : Operator)
  | opening
  | closing
  | comma
  | colon

/-- Do a step. -/
def perform (s : Converter) (c : Char) : Step → Converter
  | .skip => s
  | .quote => { s.flush with quote := some [], previous := some c }
  | .gather d => { s with run := d :: s.run, previous := some c }
  | .cancel => { s with run := [], previous := some c }
  | .sign => { s with run := ['-'], previous := some c }
  | .spell => { s.flush.put (.quoted (String.singleton c)) with previous := some '"' }
  | .operate op => { s.flush.pushOp op with previous := some c }
  | .opening => { s.openParen with previous := some c }
  | .closing => { s.closeParen with previous := some c }
  | .comma => { s.comma with previous := some c }
  | .colon => { s.colon with previous := some c }

/-- The step that a character takes, from four facts about the state: is the run a
    single sign, is it empty, is an operand expected, and was the last character
    a concatenation? -/
def stepOf (c : Char) (minus empty expects joined : Bool) : Step :=
  if c = ' ' then .skip
  else if c = '"' then .quote
  else if Text.isLetter c || Text.isDigit c || c == '.' then .gather (Text.upper c)
  else if c = '-' ∧ minus then .cancel
  else if c = '-' ∧ empty ∧ expects then .sign
  else if (c = '+' ∨ c = '*' ∨ c = '/') ∧ joined then .spell
  else if c = '+' ∧ empty ∧ expects then .skip
  else match operatorOf? c with
    | some op => .operate op
    | none =>
      if c = '(' then .opening
      else if c = ')' then .closing
      else if c = ',' then .comma
      else if c = ':' then .colon
      else .gather c

/-- Reading a character looks at the state through these facts only. -/
theorem feed_eq_perform (s : Converter) (c : Char) :
    s.feed c = s.perform c
      (stepOf c (s.run = ['-']) (s.run = []) s.expectsOperand (s.previous = some '&')) := by
  unfold feed stepOf
  simp only [apply_ite (s.perform c), decide_eq_true_eq]
  cases operatorOf? c with
  | some op => rfl
  | none =>
    simp only [apply_ite (s.perform c)]
    rfl

/-- A character without an operator is none of the five. -/
theorem operatorOf?_eq_none {c : Char} (h : operatorOf? c = none) :
    c ≠ '+' ∧ c ≠ '-' ∧ c ≠ '*' ∧ c ≠ '/' ∧ c ≠ '&' := by
  simp only [operatorOf?] at h
  grind

/-- What a step says about the character that takes it. -/
def Step.Cause (c : Char) (empty : Bool) : Step → Prop
  | .skip => c = ' ' ∨ empty = true
  | .quote => c = '"'
  | .gather d => isAlnum c = true ∨ d = c ∧ (c ≠ '<' ∧ c ≠ '>' ∧ c ≠ '=' → isGathered c = true)
  | .sign => c = '-' ∧ empty = true
  | .opening => c = '('
  | .colon => c = ':'
  | _ => True

/-- Every step has its cause. -/
theorem stepOf_cause (c : Char) (minus empty expects joined : Bool) :
    (stepOf c minus empty expects joined).Cause c empty := by
  unfold stepOf
  -- Down the alternatives in their order: each of the later ones knows that those before failed.
  by_cases hspace : c = ' '
  · rw [if_pos hspace]
    exact .inl hspace
  rw [if_neg hspace]
  by_cases hquote : c = '"'
  · rw [if_pos hquote]
    exact hquote
  rw [if_neg hquote]
  by_cases hword : (Text.isLetter c || Text.isDigit c || c == '.') = true
  · rw [if_pos hword]
    by_cases halnum : isAlnum c = true
    · exact .inl halnum
    -- A point is in a word, but neither a letter nor a digit.
    · have hpoint : c = '.' := by
        rw [Bool.or_eq_true, beq_iff_eq] at hword
        exact hword.resolve_left halnum
      subst hpoint
      exact .inr ⟨rfl, fun _ => by decide⟩
  rw [if_neg hword]
  by_cases hcancel : c = '-' ∧ minus = true
  · rw [if_pos hcancel]
    trivial
  rw [if_neg hcancel]
  by_cases hsign : c = '-' ∧ empty = true ∧ expects = true
  · rw [if_pos hsign]
    exact ⟨hsign.1, hsign.2.1⟩
  rw [if_neg hsign]
  by_cases hspell : (c = '+' ∨ c = '*' ∨ c = '/') ∧ joined = true
  · rw [if_pos hspell]
    trivial
  rw [if_neg hspell]
  by_cases hplus : c = '+' ∧ empty = true ∧ expects = true
  · rw [if_pos hplus]
    exact .inr hplus.2.1
  rw [if_neg hplus]
  cases hop : operatorOf? c with
  | some op => trivial
  | none =>
    have hnone := operatorOf?_eq_none hop
    simp only
    by_cases hopen : c = '('
    · rw [if_pos hopen]
      exact hopen
    rw [if_neg hopen]
    by_cases hclose : c = ')'
    · rw [if_pos hclose]
      trivial
    rw [if_neg hclose]
    by_cases hcomma : c = ','
    · rw [if_pos hcomma]
      trivial
    rw [if_neg hcomma]
    by_cases hcolon : c = ':'
    · rw [if_pos hcolon]
      exact hcolon
    rw [if_neg hcolon]
    -- What is left is no blank, quote, operator, bracket or separator.
    refine .inr ⟨rfl, fun hne => ?_⟩
    rw [isGathered_iff]
    exact ⟨hspace, hquote, hnone.1, hnone.2.1, hnone.2.2.1, hnone.2.2.2.1, hnone.2.2.2.2, hne.2.2,
      hne.1, hne.2.1, hopen, hclose, hcomma, hcolon⟩

/-- Ranges are replaced only where a run ends. -/
theorem ranges_feed (s : Converter) (c : Char) :
    (s.feed c).ranges = s.ranges ∨ (s.feed c).ranges = s.flush.ranges := by
  rw [feed_eq_perform]
  generalize stepOf c _ _ _ _ = step
  cases step with
  | skip => exact .inl rfl
  | quote => exact .inr rfl
  | gather d => exact .inl rfl
  | cancel => exact .inl rfl
  | sign => exact .inl rfl
  | spell => exact .inr rfl
  | operate op => exact .inr rfl
  | opening => exact .inl (openParen_frame s).2.2.2
  | closing => exact .inr rfl
  | comma => exact .inr rfl
  | colon => exact .inr (colon_frame s).2.2.2

/-- Reading a character does not change the limit. -/
theorem rangeLimit_feed (s : Converter) (c : Char) : (s.feed c).rangeLimit = s.rangeLimit := by
  rw [feed_eq_perform]
  generalize stepOf c _ _ _ _ = step
  cases step with
  | skip => rfl
  | quote => exact flush_rangeLimit s
  | gather d => rfl
  | cancel => rfl
  | sign => rfl
  | spell => exact flush_rangeLimit s
  | operate op => exact flush_rangeLimit s
  | opening => exact (openParen_frame s).1
  | closing => exact flush_rangeLimit s
  | comma => exact flush_rangeLimit s
  | colon => exact (colon_frame s).1

/-- A quoted text is open after its quote, and after nothing else. -/
theorem quote_feed {s : Converter} {c : Char} (hq : s.quote = none) :
    (s.feed c).quote.isSome = (c == '"') := by
  by_cases hc : c = '"'
  · subst hc
    rfl
  · rw [show (c == '"') = false by simpa using hc, feed_eq_perform]
    have hcause := stepOf_cause c (s.run = ['-']) (s.run = []) s.expectsOperand
      (s.previous = some '&')
    revert hcause
    generalize stepOf c _ _ _ _ = step
    intro hcause
    cases step with
    | skip => simp [perform, hq]
    | quote => exact absurd hcause hc
    | gather d => simp [perform, hq]
    | cancel => simp [perform, hq]
    | sign => simp [perform, hq]
    | spell => simp [perform, put, hq]
    | operate op => simp [perform, pushOp, hq]
    | opening => simp [perform, openParen_frame, hq]
    | closing => simp [perform, closeParen, hq]
    | comma => simp [perform, comma, hq]
    | colon => simp [perform, colon_frame, hq]

/-- A run that is left after a character outside words ends with it, or is a sign. -/
theorem run_feed {s : Converter} {c : Char} (hc : isAlnum c = false) (hspace : c ≠ ' ') :
    ∀ d ∈ (s.feed c).run.head?, d = c ∨ d = '-' := by
  intro d hd
  rw [feed_eq_perform] at hd
  have hnil {run : List Char} (h : run = []) : ¬ d ∈ run.head? := by simp [h]
  have hcause := stepOf_cause c (s.run = ['-']) (s.run = []) s.expectsOperand
    (s.previous = some '&')
  revert hcause hd
  generalize stepOf c _ _ _ _ = step
  intro hd hcause
  cases step with
  | skip =>
    have hempty : s.run = [] := by simpa using hcause.resolve_left hspace
    exact absurd hd (hnil hempty)
  | quote =>
    exact absurd hd (hnil (flush_run s))
  | gather e =>
    rcases hcause with halnum | ⟨rfl, -⟩
    · rw [hc] at halnum
      exact absurd halnum (by simp)
    · exact .inl (by simpa [perform] using hd.symm)
  | cancel =>
    exact absurd hd (hnil rfl)
  | sign =>
    exact .inr (by simpa [perform] using hd.symm)
  | spell =>
    exact absurd hd (hnil (flush_run s))
  | operate op =>
    exact absurd hd (hnil (flush_run s))
  | opening =>
    exact absurd hd (hnil (openParen_frame s).2.2.1)
  | closing =>
    exact absurd hd (hnil (flush_run s))
  | comma =>
    exact absurd hd (hnil (flush_run s))
  | colon =>
    exact absurd hd (hnil (colon_frame s).2.2.1)

/-! ## Comparisons -/

/-- The operator of a comparison, and whether the next character belongs to it. -/
def comparison (c : Char) (next : Option Char) : Operator × Bool :=
  match c, next with
  | '<', some '=' => (.le, true)
  | '<', some '>' => (.ne, true)
  | '>', some '=' => (.ge, true)
  | '=', some '=' => (.eq, true)
  | '<', _ => (.lt, false)
  | '>', _ => (.gt, false)
  | _, _ => (.eq, false)

/-- Read a comparison. -/
def compared (s : Converter) (c : Char) (next : Option Char) : Converter :=
  { s.compareWith (comparison c next).1 with previous := some c }

/-- The text after a comparison. -/
def afterComparison (c : Char) (cs : List Char) : List Char :=
  if (comparison c cs.head?).2 then cs.tail else cs

/-- A comparison takes at most one more character. -/
theorem length_afterComparison (c : Char) (cs : List Char) :
    (afterComparison c cs).length ≤ cs.length := by
  unfold afterComparison
  split
  · rw [List.length_tail]
    omega
  · exact Nat.le_refl _

/-- A comparison is read with the character after it, if that belongs to it. -/
theorem read_comparison {s : Converter} {c : Char} {cs : List Char} (hq : s.quote = none)
    (hc : c = '<' ∨ c = '>' ∨ c = '=') :
    s.read (c :: cs) = (s.compared c cs.head?).read (afterComparison c cs) := by
  rw [read, hq]
  cases cs with
  | nil => rcases hc with rfl | rfl | rfl <;> rfl
  | cons d ds =>
    rcases hc with rfl | rfl | rfl
    · by_cases h1 : d = '='
      · subst h1; rfl
      · by_cases h2 : d = '>'
        · subst h2; rfl
        · simp [compared, afterComparison, comparison, h1, h2]
    · by_cases h1 : d = '='
      · subst h1; rfl
      · simp [compared, afterComparison, comparison, h1]
    · by_cases h1 : d = '='
      · subst h1; rfl
      · simp [compared, afterComparison, comparison, h1]

/-- Only two characters are ever the second half of a comparison. -/
theorem comparison_of_ne {c d : Char} (h : d ≠ '=' ∧ d ≠ '>') :
    comparison c (some d) = comparison c none ∧ (comparison c none).2 = false := by
  unfold comparison
  grind

/-- A text that begins with neither of the two is left as it is. -/
theorem comparison_of_head {c : Char} {cs : List Char}
    (h : ∀ d ∈ cs.head?, d ≠ '=' ∧ d ≠ '>') :
    comparison c cs.head? = comparison c none ∧ afterComparison c cs = cs := by
  cases cs with
  | nil =>
    refine ⟨rfl, ?_⟩
    unfold afterComparison
    split <;> rfl
  | cons d ds =>
    obtain ⟨heq, hone⟩ := comparison_of_ne (c := c) (h d rfl)
    refine ⟨heq, ?_⟩
    rw [afterComparison, List.head?_cons, heq, hone]
    rfl

/-- Ranges that were replaced are kept to the end. -/
theorem ranges_read (s : Converter) (cs : List Char) : s.ranges ⊆ (s.read cs).ranges := by
  have hfeed (s : Converter) (c : Char) : s.ranges ⊆ (s.feed c).ranges := by
    rcases ranges_feed s c with h | h
    · rw [h]
      exact List.Subset.refl _
    · rw [h]
      exact ranges_flush s
  -- The induction is on the length of the text, since a comparison takes two characters at once.
  induction hlen : cs.length using Nat.strongRecOn generalizing s cs with
  | ind n ih =>
    subst hlen
    cases cs with
    | nil => exact List.Subset.refl _
    | cons c cs =>
      cases hq : s.quote with
      | some body =>
        rw [read_quoted hq]
        refine List.Subset.trans ?_ (ih cs.length (by simp) (s.feedQuoted body c) cs rfl)
        unfold feedQuoted
        split <;> exact List.Subset.refl _
      | none =>
        by_cases hop : c = '<' ∨ c = '>' ∨ c = '='
        · rw [read_comparison hq hop]
          have hshort := length_afterComparison c cs
          have hrest := ih _ (by simp; omega) (s.compared c cs.head?) (afterComparison c cs) rfl
          exact List.Subset.trans (ranges_flush s) hrest
        · rw [read_cons hq ⟨fun h => hop (.inl h), fun h => hop (.inr (.inl h)),
            fun h => hop (.inr (.inr h))⟩]
          exact List.Subset.trans (hfeed s c) (ih cs.length (by simp) _ cs rfl)

end Converter

end Formula

end Worksheet
