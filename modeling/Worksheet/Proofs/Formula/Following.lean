import Mathlib.Data.List.Forall2
import Worksheet.Proofs.Formula.Body
import Worksheet.Proofs.Formula.Converter

/-!
# Converters Side by Side

Two conversions that read texts of which one follows the other.

The states agree on everything but cells. Tokens correspond if they are the
same, or operands of the same sign whose meanings correspond, or names that
no function has. The characters of a run correspond behind the same sign, and
the last character may differ only between letters and digits, which no
decision of the converter tells apart.

What moves with the cells must be said for ranges as well. The converter
replaces a range by the cells in it, and these correspond to the cells of the
other range only if the range is moved as a whole. Which ranges are, depends
on the movement, so it stays a hypothesis on the ranges that are replaced.

## Main definitions

* `TokenFollows`: Tokens that correspond.
* `PendingFollows`, `RunFollows`, `PreviousFollows`: The parts of the state.
* `StateFollows`: States that correspond.
* `RangeFollows`: The cells of a range move along with its corners.

## Theorems

* `popTighter_follows`, `popOps_follows`, `closeFrame_follows`, `drain_follows`:
  Emptying the stack.
* `rangeOperands_follows`: Replacing ranges whose cells move along.
* `Corners.follows`, `Corners.of_follows`: Ranges end at the same places.
* `expandRange_follows`, `flush_follows`: The end of a run.
-/

namespace Worksheet

namespace Formula

/-- Tokens that correspond when cells move. -/
inductive TokenFollows (move : CellRef → CellRef) : Token → Token → Prop where
  | operand {text text' : String} (hsign : (splitSign text').1 = (splitSign text).1)
    (hmeaning : meaning (splitSign text').2 = (meaning (splitSign text).2).map move) :
    TokenFollows move (.operand text) (.operand text')
  | quoted (text : String) : TokenFollows move (.quoted text) (.quoted text)
  | op (o : Operator) : TokenFollows move (.op o) (.op o)
  | func {name name' : String} (arity : Nat) (h : NameFollows name name') :
    TokenFollows move (.func name arity) (.func name' arity)
  | call {name name' : String} (arity : Nat) (h : NameFollows name name') :
    TokenFollows move (.call name arity) (.call name' arity)

namespace Converter

/-- What waits corresponds: everything agrees but names that are none. -/
inductive PendingFollows : Pending → Pending → Prop where
  | op (o : Operator) : PendingFollows (.op o) (.op o)
  | paren : PendingFollows .paren .paren
  | call {name name' : String} (args : Nat) (counted : Bool) (mark : Nat)
    (h : NameFollows name name') :
    PendingFollows (.call name args counted mark) (.call name' args counted mark)

/-- Runs correspond behind the same sign. Runs are kept backwards. -/
inductive RunFollows (move : CellRef → CellRef) : List Char → List Char → Prop where
  | mk (negative : Bool) {body body' : List Char} (h : BodyFollows move body body')
    (hbody : ∀ c ∈ body, isGathered c = true) (hbody' : ∀ c ∈ body', isGathered c = true) :
    RunFollows move (signChars negative ++ body).reverse (signChars negative ++ body').reverse

/-- The last characters agree, or each is a letter or a digit. -/
def PreviousFollows (p p' : Option Char) : Prop :=
  p' = p ∨ ∃ c c', p = some c ∧ p' = some c' ∧ isAlnum c = true ∧ isAlnum c' = true

/-- States that correspond. The ranges that were replaced are left out: they move. -/
structure StateFollows (move : CellRef → CellRef) (s s' : Converter) : Prop where
  rangeLimit : s'.rangeLimit = s.rangeLimit
  output : List.Forall₂ (TokenFollows move) s.output s'.output
  stack : List.Forall₂ PendingFollows s.stack s'.stack
  run : RunFollows move s.run s'.run
  previous : PreviousFollows s.previous s'.previous
  rangeStart : s'.rangeStart = s.rangeStart
  quote : s'.quote = s.quote

variable {move : CellRef → CellRef} {s s' : Converter}

/-- The empty text spells no cell. -/
theorem nil_spells_none : CellRef.ofChars? [] = none := by decide

/-- Empty runs correspond. -/
theorem runFollows_nil : RunFollows move [] [] :=
  .mk false (.same nil_spells_none) (by simp) (by simp)

/-- The sign of a run is split off again. -/
theorem signChars_append_head (negative : Bool) {body : List Char}
    (hbody : ∀ c ∈ body, isGathered c = true) :
    splitSign (String.ofList (signChars negative ++ body)) = (negative, String.ofList body) := by
  cases negative with
  | true => exact splitSign_minus body
  | false =>
    refine splitSign_of_head ?_
    intro hhead
    have hgathered := hbody '-' (List.mem_of_mem_head? hhead)
    exact absurd hgathered (by decide)

/-- Corresponding runs become corresponding operands. -/
theorem RunFollows.token {run run' : List Char} (h : RunFollows move run run') :
    TokenFollows move (.operand (String.ofList run.reverse))
      (.operand (String.ofList run'.reverse)) := by
  cases h with
  | mk negative h hbody hbody' =>
    rw [List.reverse_reverse, List.reverse_reverse]
    refine .operand ?_ ?_
    · rw [signChars_append_head negative hbody, signChars_append_head negative hbody']
    · rw [signChars_append_head negative hbody, signChars_append_head negative hbody']
      exact h.meaning_eq

/-- A run is empty if it has neither a sign nor a text behind it. -/
theorem signed_eq_nil_iff {negative : Bool} {body : List Char} :
    (signChars negative ++ body).reverse = [] ↔ negative = false ∧ body = [] := by
  cases negative <;> simp [signChars]

/-- A run is a single sign if it has no text behind it: no gathered character is one. -/
theorem signed_eq_minus_iff {negative : Bool} {body : List Char}
    (hbody : ∀ c ∈ body, isGathered c = true) :
    (signChars negative ++ body).reverse = ['-'] ↔ negative = true ∧ body = [] := by
  cases negative with
  | true => simp [signChars]
  | false =>
    refine iff_of_false (fun heq => ?_) (by simp)
    have hmem : '-' ∈ body := by
      rw [← List.mem_reverse]
      simp only [signChars, Bool.false_eq_true, if_false, List.nil_append] at heq
      rw [heq]
      simp
    exact absurd (hbody _ hmem) (by decide)

/-- Corresponding runs are empty together. -/
theorem RunFollows.eq_nil_iff {run run' : List Char} (h : RunFollows move run run') :
    run = [] ↔ run' = [] := by
  cases h with
  | mk negative h hbody hbody' =>
    rw [signed_eq_nil_iff, signed_eq_nil_iff, h.eq_nil_iff]

/-- Corresponding runs are a single sign together. -/
theorem RunFollows.eq_minus_iff {run run' : List Char} (h : RunFollows move run run') :
    run = ['-'] ↔ run' = ['-'] := by
  cases h with
  | mk negative h hbody hbody' =>
    rw [signed_eq_minus_iff hbody, signed_eq_minus_iff hbody', h.eq_nil_iff]

/-- After a letter or a digit no operand is expected. -/
theorem expectsOperand_of_isAlnum {s : Converter} {c : Char} (hp : s.previous = some c)
    (hc : isAlnum c = true) : s.expectsOperand = false :=
  expectsOperand_gathered hp (isGathered_of_isAlnum hc)

/-- Corresponding states expect an operand together. -/
theorem StateFollows.expectsOperand_eq (h : StateFollows move s s') :
    s'.expectsOperand = s.expectsOperand := by
  rcases h.previous with heq | ⟨c, c', hc, hc', halnum, halnum'⟩
  · unfold expectsOperand
    rw [heq]
  · rw [expectsOperand_of_isAlnum hc halnum, expectsOperand_of_isAlnum hc' halnum']

/-- Corresponding states come from a concatenation together. -/
theorem StateFollows.previous_eq_iff (h : StateFollows move s s') :
    s'.previous = some '&' ↔ s.previous = some '&' := by
  rcases h.previous with heq | ⟨c, c', hc, hc', halnum, halnum'⟩
  · rw [heq]
  · have hnot {d : Char} (hd : isAlnum d = true) : ¬ some d = some '&' := by
      rintro ⟨⟩
      exact absurd hd (by decide)
    rw [hc, hc']
    exact iff_of_false (hnot halnum') (hnot halnum)

/-! ## Emptying the stack -/

/-- Corresponding names take a single argument together. -/
theorem NameFollows.any_eq {name name' : String} (h : NameFollows name name') :
    (Function.ofName? name').any Function.isUnary =
      (Function.ofName? name).any Function.isUnary := by
  rcases h with rfl | ⟨h, h'⟩
  · rfl
  · rw [h, h']

/-- Closing corresponding calls puts out corresponding tokens. -/
theorem callToken_follows {name name' : String} (args : Nat) (counted : Bool) (mark : Nat)
    {out out' : List Token} (h : NameFollows name name')
    (hout : List.Forall₂ (TokenFollows move) out out') :
    TokenFollows move (callToken name args counted mark out)
      (callToken name' args counted mark out') := by
  unfold callToken
  rw [NameFollows.any_eq h, hout.length_eq]
  split
  · exact .call _ h
  · split
    · exact .call _ h
    · exact .func _ h

/-- An operator passes over corresponding operators. -/
theorem popTighter_follows (op : Operator) {ps ps' : List Pending} {out out' : List Token}
    (hps : List.Forall₂ PendingFollows ps ps') (hout : List.Forall₂ (TokenFollows move) out out') :
    List.Forall₂ PendingFollows (popTighter op ps out).1 (popTighter op ps' out').1 ∧
      List.Forall₂ (TokenFollows move) (popTighter op ps out).2 (popTighter op ps' out').2 := by
  induction hps generalizing out out' with
  | nil => exact ⟨.nil, hout⟩
  | cons hp hps ih =>
    cases hp with
    -- Both sides see the same operator, so both stop here or both go on.
    | op o =>
      unfold popTighter
      split
      · exact ⟨.cons (.op o) hps, hout⟩
      · exact ih (.cons (.op o) hout)
    | paren => exact ⟨.cons .paren hps, hout⟩
    | call args counted mark h => exact ⟨.cons (.call args counted mark h) hps, hout⟩

/-- A comma passes over corresponding operators. -/
theorem popOps_follows {ps ps' : List Pending} {out out' : List Token}
    (hps : List.Forall₂ PendingFollows ps ps') (hout : List.Forall₂ (TokenFollows move) out out') :
    List.Forall₂ PendingFollows (popOps ps out).1 (popOps ps' out').1 ∧
      List.Forall₂ (TokenFollows move) (popOps ps out).2 (popOps ps' out').2 := by
  induction hps generalizing out out' with
  | nil => exact ⟨.nil, hout⟩
  | cons hp hps ih =>
    cases hp with
    | op o => exact ih (.cons (.op o) hout)
    | paren => exact ⟨.cons .paren hps, hout⟩
    | call args counted mark h => exact ⟨.cons (.call args counted mark h) hps, hout⟩

/-- A closing parenthesis closes corresponding frames. -/
theorem closeFrame_follows {ps ps' : List Pending} {out out' : List Token}
    (hps : List.Forall₂ PendingFollows ps ps') (hout : List.Forall₂ (TokenFollows move) out out') :
    List.Forall₂ PendingFollows (closeFrame ps out).1 (closeFrame ps' out').1 ∧
      List.Forall₂ (TokenFollows move) (closeFrame ps out).2 (closeFrame ps' out').2 := by
  induction hps generalizing out out' with
  | nil => exact ⟨.nil, hout⟩
  | cons hp hps ih =>
    cases hp with
    | op o => exact ih (.cons (.op o) hout)
    | paren => exact ⟨hps, hout⟩
    | call args counted mark h =>
      exact ⟨hps, .cons (callToken_follows args counted mark h hout) hout⟩

/-- The end of the text empties corresponding stacks. -/
theorem drain_follows {ps ps' : List Pending} {out out' : List Token}
    (hps : List.Forall₂ PendingFollows ps ps') (hout : List.Forall₂ (TokenFollows move) out out') :
    List.Forall₂ (TokenFollows move) (drain ps out) (drain ps' out') := by
  induction hps generalizing out out' with
  | nil => exact hout
  | cons hp hps ih =>
    cases hp with
    | op o => exact ih (.cons (.op o) hout)
    | paren => exact ih hout
    | call args counted mark h => exact ih (.cons (callToken_follows args counted mark h hout) hout)

/-- Changing the innermost call keeps stacks corresponding. -/
theorem editCall_follows (edit : Nat → Nat) {ps ps' : List Pending}
    (hps : List.Forall₂ PendingFollows ps ps') :
    List.Forall₂ PendingFollows (editCall edit ps) (editCall edit ps') := by
  induction hps with
  | nil => exact .nil
  | cons hp hps ih =>
    cases hp with
    | op o => exact .cons (.op o) ih
    | paren => exact .cons .paren hps
    | call args counted mark h => exact .cons (.call _ true mark h) hps

/-- Counting an argument keeps stacks corresponding. -/
theorem countArgument_follows {ps ps' : List Pending} (hps : List.Forall₂ PendingFollows ps ps') :
    List.Forall₂ PendingFollows (countArgument ps) (countArgument ps') := by
  cases hps with
  | nil => exact .nil
  | cons hp hps =>
    cases hp with
    | op o => exact .cons (.op o) hps
    | paren => exact .cons .paren hps
    | call args counted mark h => exact .cons (.call _ true mark h) hps

/-! ## The end of a run -/

/-- A text without a sign is split into nothing and itself. -/
theorem splitSign_eq_of_fst {text : String} (h : (splitSign text).1 = false) :
    splitSign text = (false, text) := by
  unfold splitSign at h ⊢
  split
  · rename_i heq
    rw [heq] at h
    exact absurd h (by simp)
  · rfl

/-- Only operands without a sign spell a cell. -/
theorem ofText?_eq_some_iff {text : String} {c : CellRef} :
    CellRef.ofText? text = some c ↔
      (splitSign text).1 = false ∧ meaning (splitSign text).2 = .cell c := by
  constructor
  · intro h
    rcases ofText?_head h with ⟨d, hd, hletter⟩
    -- A cell begins with a letter, so there is no sign to split off.
    have hsign : splitSign text = (false, text) := by
      have hhead : text.toList.head? ≠ some '-' := by
        rw [hd]
        rintro ⟨⟩
        exact absurd hletter (by decide)
      have hsplit := splitSign_of_head hhead
      rwa [String.ofList_toList] at hsplit
    rw [hsign]
    exact ⟨rfl, meaning_eq_cell_iff.2 h⟩
  · rintro ⟨hsign, hcell⟩
    rw [splitSign_eq_of_fst hsign] at hcell
    exact meaning_eq_cell_iff.1 hcell

/-- Of corresponding operands, one spells a cell when the other spells the moved
    cell. -/
theorem TokenFollows.ofText?_eq {text text' : String}
    (h : TokenFollows move (.operand text) (.operand text')) :
    CellRef.ofText? text' = (CellRef.ofText? text).map move := by
  cases h with
  | operand hsign hmeaning =>
    cases htext : CellRef.ofText? text with
    -- The signs agree, and the meanings say what each text spells.
    | some c =>
      rcases ofText?_eq_some_iff.1 htext with ⟨hfst, hcell⟩
      rw [hcell] at hmeaning
      exact ofText?_eq_some_iff.2 ⟨hsign.trans hfst, hmeaning⟩
    | none =>
      cases htext' : CellRef.ofText? text' with
      | none => rfl
      | some c' =>
        rcases ofText?_eq_some_iff.1 htext' with ⟨hfst, hcell⟩
        rw [hcell] at hmeaning
        cases hm : meaning (splitSign text).2 with
        | value v =>
          rw [hm] at hmeaning
          exact absurd hmeaning (by simp [Meaning.map])
        | cell c =>
          have hsome := ofText?_eq_some_iff.2 ⟨hsign.symm.trans hfst, hm⟩
          rw [htext] at hsome
          exact absurd hsome (by simp)

/-- The cells of a range correspond to the cells between the moved corners, for
    whatever corners the range is written with. -/
def RangeFollows (move : CellRef → CellRef) (limit : Nat) (r : Range) : Prop :=
  ∀ a b : CellRef, a.Fits → b.Fits → (move a).Fits → (move b).Fits → Range.between a b = r →
    List.Forall₂ (TokenFollows move) (rangeOperands limit r)
      (rangeOperands limit (Range.between (move a) (move b)))

/-- The notations of a cell and the moved cell are corresponding operands. -/
theorem cell_follows {c : CellRef} (h : c.Fits) (h' : (move c).Fits) :
    TokenFollows move (.operand c.toText) (.operand (move c).toText) := by
  have hcell := CellRef.ofChars?_toChars h.1 h.2
  have hcell' := CellRef.ofChars?_toChars h'.1 h'.2
  have hgathered {c : CellRef} (h : CellRef.ofChars? c.toChars = some c) :
      ∀ d ∈ c.toChars, isGathered d = true := fun d hd =>
    isGathered_of_isAlnum (cell_isAlnum h d hd)
  have hrun := RunFollows.mk false (.cell hcell hcell') (hgathered hcell) (hgathered hcell')
  have htoken := hrun.token
  rw [List.reverse_reverse, List.reverse_reverse] at htoken
  exact htoken

/-- A range with too many cells is replaced by the same operand everywhere. -/
theorem rangeOperands_large {limit : Nat} {r : Range} (h : limit < r.count) :
    rangeOperands limit r = [.operand Failure.reference.sentinel] := by
  unfold rangeOperands rangeCells?
  rw [if_pos h]

/-- That operand corresponds to itself. -/
theorem sentinel_follows :
    TokenFollows move (.operand Failure.reference.sentinel)
      (.operand Failure.reference.sentinel) := by
  have hbody : BodyFollows move Failure.reference.sentinel.toList
      Failure.reference.sentinel.toList := .same (by decide)
  have htoken := (RunFollows.mk false hbody (List.all_eq_true.1 (by decide))
    (List.all_eq_true.1 (by decide))).token
  rw [List.reverse_reverse] at htoken
  exact htoken

/-- If the cells of a range move to the cells of another one, the operands of the
    ranges correspond. -/
theorem rangeOperands_follows {limit : Nat} {r r' : Range} (hcells : r'.cells = r.cells.map move)
    (hfits : ∀ c ∈ r.cells, c.Fits ∧ (move c).Fits) :
    List.Forall₂ (TokenFollows move) (rangeOperands limit r) (rangeOperands limit r') := by
  have hcount : r'.count = r.count := by
    rw [← Range.length_cells, hcells, List.length_map, Range.length_cells]
  by_cases hlarge : limit < r.count
  · rw [rangeOperands_large hlarge, rangeOperands_large (by omega)]
    exact .cons sentinel_follows .nil
  -- Otherwise the operands are the cells, one by one.
  · unfold rangeOperands rangeCells?
    rw [if_neg hlarge, if_neg (by omega), hcells]
    simp only [List.map_map, List.forall₂_map_left_iff, List.forall₂_map_right_iff]
    rw [List.forall₂_same]
    exact fun c hc => cell_follows (hfits c hc).1 (hfits c hc).2

/-- Corners correspond to the moved corners. -/
theorem Corners.follows {start : Nat} {ts ts' out : List Token} {x y : CellRef}
    (h : Corners start ts x y out) (hts : List.Forall₂ (TokenFollows move) ts ts') :
    ∃ out', Corners start ts' (move x) (move y) out' ∧
      List.Forall₂ (TokenFollows move) out out' := by
  cases h with
  | mk hstart ha hb =>
    cases hts with
    | cons htb hts =>
      cases hts with
      | cons hta hout =>
        -- Only operands correspond to operands, and they spell the moved cells.
        cases hta with
        | operand hsigna hmeaninga =>
          cases htb with
          | operand hsignb hmeaningb =>
            have hatext := TokenFollows.ofText?_eq (.operand hsigna hmeaninga)
            have hbtext := TokenFollows.ofText?_eq (.operand hsignb hmeaningb)
            rw [ha] at hatext
            rw [hb] at hbtext
            exact ⟨_, .mk (hout.length_eq.symm.trans hstart) hatext hbtext, hout⟩

/-- Nothing else corresponds to corners. -/
theorem Corners.of_follows {start : Nat} {ts ts' out' : List Token} {x' y' : CellRef}
    (h : Corners start ts' x' y' out') (hts : List.Forall₂ (TokenFollows move) ts ts') :
    ∃ x y out, Corners start ts x y out := by
  cases h with
  | mk hstart ha hb =>
    cases hts with
    | cons htb hts =>
      cases hts with
      | cons hta hout =>
        cases hta with
        | operand hsigna hmeaninga =>
          cases htb with
          | operand hsignb hmeaningb =>
            have hatext := TokenFollows.ofText?_eq (.operand hsigna hmeaninga)
            have hbtext := TokenFollows.ofText?_eq (.operand hsignb hmeaningb)
            rw [ha, eq_comm, Option.map_eq_some_iff] at hatext
            rw [hb, eq_comm, Option.map_eq_some_iff] at hbtext
            rcases hatext with ⟨x, hx, -⟩
            rcases hbtext with ⟨y, hy, -⟩
            exact ⟨x, y, _, .mk (hout.length_eq.trans hstart) hx hy⟩

/-- The corners of a range are on the grid. -/
theorem Corners.fits {start : Nat} {ts out : List Token} {x y : CellRef}
    (h : Corners start ts x y out) : x.Fits ∧ y.Fits := by
  cases h with
  | mk hstart ha hb => exact ⟨CellRef.fits_of_ofChars? ha, CellRef.fits_of_ofChars? hb⟩

/-- The end of a range keeps states corresponding. -/
theorem expandRange_follows (start : Nat) (h : StateFollows move s s')
    (hranges : ∀ r ∈ (s.expandRange start).ranges, RangeFollows move s.rangeLimit r) :
    StateFollows move (s.expandRange start) (s'.expandRange start) := by
  by_cases hcorners : ∃ x y out, Corners start s.output x y out
  · rcases hcorners with ⟨x, y, out, hcorners⟩
    rcases hcorners.follows h.output with ⟨out', hcorners', hout⟩
    rw [expandRange_corners hcorners] at hranges ⊢
    rw [expandRange_corners hcorners', h.rangeLimit]
    -- The range is replaced, which is the one place where it must move as a whole.
    have hrange := hranges (Range.between x y) List.mem_cons_self x y hcorners.fits.1
      hcorners.fits.2 hcorners'.fits.1 hcorners'.fits.2 rfl
    refine ⟨rfl, ?_, ?_, h.run, h.previous, h.rangeStart, h.quote⟩
    · exact List.rel_append (List.forall₂_reverse_iff.2 hrange) hout
    · rw [hrange.length_eq]
      exact editCall_follows _ h.stack
  · have hcorners' : ¬∃ x y out, Corners start s'.output x y out := by
      rintro ⟨x, y, out, hcorners'⟩
      exact hcorners (hcorners'.of_follows h.output)
    rw [expandRange_of_not_corners hcorners, expandRange_of_not_corners hcorners']
    exact h

/-- The end of a run keeps states corresponding. -/
theorem flush_follows (h : StateFollows move s s')
    (hranges : ∀ r ∈ s.flush.ranges, RangeFollows move s.rangeLimit r) :
    StateFollows move s.flush s'.flush := by
  by_cases hrun : s.run = []
  · rw [flush_of_run_nil hrun, flush_of_run_nil (h.run.eq_nil_iff.1 hrun)]
    exact h
  -- The runs become operands, and these may end a range.
  · have hrun' : s'.run ≠ [] := fun hnil => hrun (h.run.eq_nil_iff.2 hnil)
    have hstep : StateFollows move
        { s with run := [], rangeStart := none,
                 output := .operand (String.ofList s.run.reverse) :: s.output }
        { s' with run := [], rangeStart := none,
                  output := .operand (String.ofList s'.run.reverse) :: s'.output } :=
      ⟨h.rangeLimit, .cons h.run.token h.output, h.stack, runFollows_nil, h.previous, rfl, h.quote⟩
    cases hstart : s.rangeStart with
    | none =>
      rw [flush_of_rangeStart_none hrun hstart,
        flush_of_rangeStart_none hrun' (h.rangeStart.trans hstart)]
      exact { hstep with rangeStart := h.rangeStart }
    | some start =>
      rw [flush_of_rangeStart_some hrun hstart] at hranges ⊢
      rw [flush_of_rangeStart_some hrun' (h.rangeStart.trans hstart)]
      exact expandRange_follows start hstep hranges

/-! ## Operators and separators -/

/-- An operator keeps states corresponding. -/
theorem pushOp_follows (op : Operator) (h : StateFollows move s s') :
    StateFollows move (s.pushOp op) (s'.pushOp op) := by
  rcases popTighter_follows op h.stack h.output with ⟨hstack, hout⟩
  exact ⟨h.rangeLimit, hout, .cons (.op op) hstack, h.run, h.previous, h.rangeStart, h.quote⟩

/-- Putting out corresponding tokens keeps states corresponding. -/
theorem put_follows {t t' : Token} (ht : TokenFollows move t t') (h : StateFollows move s s') :
    StateFollows move (s.put t) (s'.put t') :=
  { h with output := .cons ht h.output }

/-- So does a comparison, once the run has ended. -/
theorem compareWith_follows (op : Operator) (h : StateFollows move s.flush s'.flush) :
    StateFollows move (s.compareWith op) (s'.compareWith op) := by
  have hpush := pushOp_follows op h
  exact { hpush with stack := editCall_follows id hpush.stack }

/-- So does a closing parenthesis. -/
theorem closeParen_follows (h : StateFollows move s.flush s'.flush) :
    StateFollows move s.closeParen s'.closeParen := by
  rcases closeFrame_follows h.stack h.output with ⟨hstack, hout⟩
  exact ⟨h.rangeLimit, hout, hstack, h.run, h.previous, rfl, h.quote⟩

/-- So does a comma. -/
theorem comma_follows (h : StateFollows move s.flush s'.flush) :
    StateFollows move s.comma s'.comma := by
  rcases popOps_follows h.stack h.output with ⟨hstack, hout⟩
  exact ⟨h.rangeLimit, hout, countArgument_follows hstack, h.run, h.previous, rfl, h.quote⟩

/-- So does a colon, since the outputs are equally long. -/
theorem colon_follows (h : StateFollows move s.flush s'.flush) :
    StateFollows move s.colon s'.colon := by
  have hout := h.output
  unfold colon
  simp only
  revert hout
  generalize s.flush.output = out
  generalize s'.flush.output = out'
  intro hout
  cases hout with
  | nil => exact h
  | cons ht hout =>
    cases ht with
    | operand hsign hmeaning =>
      exact ⟨h.rangeLimit, .cons (.operand hsign hmeaning) hout, h.stack, h.run, h.previous,
        congrArg some hout.length_eq.symm, h.quote⟩
    | quoted text => exact h
    | op o => exact h
    | func arity hname => exact h
    | call arity hname => exact h

end Converter

end Formula

end Worksheet
