import Worksheet.Proofs.Formula.Landmarks
import Worksheet.Proofs.Formula.Reading

/-!
# States with the Same Landmarks

When two conversions have read the same, but for the words that were rewritten.

Two conversions are run side by side, one of an aligned text and one of what was
made of it. They need not do the same. A range may be replaced by more cells in one
of them or by none, so the tokens do not correspond one by one, and neither do the
counts of arguments. Only the landmarks are compared. Operators leave none, and
neither do the cells of a range as long as cells are not looked at. So the states may
differ freely in everything else, and a run only has to be, at its end, the same on
both sides or no number on either.

## Main definitions

* `PendingAgree`, `OutputAgree`: What waits and what was put out.
* `BodyAgree`, `RunAgree`: What is being gathered.
* `StateAgree`: States with the same landmarks.

## Theorems

* `popTighter_agree`, `closeFrame_agree`, `drain_agree`: What the stack gives up agrees.
* `RunAgree.output`: The end of a run leaves the same landmark.
-/

namespace Worksheet

namespace Formula

namespace Converter

variable {cells : Bool} {move : CellRef → CellRef} {s s' : Converter}

/-! ## The stack -/

/-- What waits agrees but for the arguments of calls. -/
inductive PendingAgree : Pending → Pending → Prop where
  | op (o : Operator) : PendingAgree (.op o) (.op o)
  | paren : PendingAgree .paren .paren
  | call (name : String) {args args' : Nat} {counted counted' : Bool} {mark mark' : Nat} :
    PendingAgree (.call name args counted mark) (.call name args' counted' mark')

/-- Outputs have the same landmarks, but for moved cells. -/
def OutputAgree (cells : Bool) (move : CellRef → CellRef) (out out' : List Token) : Prop :=
  landmarks cells out' = (landmarks cells out).map (Landmark.map move)

namespace OutputAgree

variable {out out' : List Token}

theorem op (o : Operator) (h : OutputAgree cells move out out') :
    OutputAgree cells move (.op o :: out) (.op o :: out') := h

theorem quoted (text : String) (h : OutputAgree cells move out out') :
    OutputAgree cells move (.quoted text :: out) (.quoted text :: out') := h

theorem callToken {name : String} {args args' mark mark' : Nat} {counted counted' : Bool}
    {ts ts' : List Token} (h : OutputAgree cells move out out') :
    OutputAgree cells move (callToken name args counted mark ts :: out)
      (callToken name args' counted' mark' ts' :: out') := by
  unfold OutputAgree
  rw [landmarks_callToken, landmarks_callToken, h]
  rfl

end OutputAgree

variable {ps ps' : List Pending} {out out' : List Token}

/-- An operator passes over the same operators. -/
theorem popTighter_agree (op : Operator) (hps : List.Forall₂ PendingAgree ps ps')
    (hout : OutputAgree cells move out out') :
    List.Forall₂ PendingAgree (popTighter op ps out).1 (popTighter op ps' out').1 ∧
      OutputAgree cells move (popTighter op ps out).2 (popTighter op ps' out').2 := by
  induction hps generalizing out out' with
  | nil => exact ⟨.nil, hout⟩
  | cons hp hps ih =>
    cases hp with
    | op o =>
      unfold popTighter
      split
      · exact ⟨.cons (.op o) hps, hout⟩
      · exact ih (hout.op o)
    | paren => exact ⟨.cons .paren hps, hout⟩
    | call name => exact ⟨.cons (.call name) hps, hout⟩

/-- So does a comma. -/
theorem popOps_agree (hps : List.Forall₂ PendingAgree ps ps')
    (hout : OutputAgree cells move out out') :
    List.Forall₂ PendingAgree (popOps ps out).1 (popOps ps' out').1 ∧
      OutputAgree cells move (popOps ps out).2 (popOps ps' out').2 := by
  induction hps generalizing out out' with
  | nil => exact ⟨.nil, hout⟩
  | cons hp hps ih =>
    cases hp with
    | op o => exact ih (hout.op o)
    | paren => exact ⟨.cons .paren hps, hout⟩
    | call name => exact ⟨.cons (.call name) hps, hout⟩

/-- A closing parenthesis closes the same frame. -/
theorem closeFrame_agree (hps : List.Forall₂ PendingAgree ps ps')
    (hout : OutputAgree cells move out out') :
    List.Forall₂ PendingAgree (closeFrame ps out).1 (closeFrame ps' out').1 ∧
      OutputAgree cells move (closeFrame ps out).2 (closeFrame ps' out').2 := by
  induction hps generalizing out out' with
  | nil => exact ⟨.nil, hout⟩
  | cons hp hps ih =>
    cases hp with
    | op o => exact ih (hout.op o)
    | paren => exact ⟨hps, hout⟩
    | call name => exact ⟨hps, hout.callToken⟩

/-- The end of the text closes all of them. -/
theorem drain_agree (hps : List.Forall₂ PendingAgree ps ps')
    (hout : OutputAgree cells move out out') :
    OutputAgree cells move (drain ps out) (drain ps' out') := by
  induction hps generalizing out out' with
  | nil => exact hout
  | cons hp hps ih =>
    cases hp with
    | op o => exact ih (hout.op o)
    | paren => exact ih hout
    | call name => exact ih hout.callToken

/-- Counting arguments on either side changes nothing that is compared. -/
theorem editCall_agree_left (edit : Nat → Nat) (hps : List.Forall₂ PendingAgree ps ps') :
    List.Forall₂ PendingAgree (editCall edit ps) ps' := by
  induction hps with
  | nil => exact .nil
  | cons hp hps ih =>
    cases hp with
    | op o => exact .cons (.op o) ih
    | paren => exact .cons .paren hps
    | call name => exact .cons (.call name) hps

theorem editCall_agree_right (edit : Nat → Nat) (hps : List.Forall₂ PendingAgree ps ps') :
    List.Forall₂ PendingAgree ps (editCall edit ps') := by
  induction hps with
  | nil => exact .nil
  | cons hp hps ih =>
    cases hp with
    | op o => exact .cons (.op o) ih
    | paren => exact .cons .paren hps
    | call name => exact .cons (.call name) hps

theorem countArgument_agree (hps : List.Forall₂ PendingAgree ps ps') :
    List.Forall₂ PendingAgree (countArgument ps) (countArgument ps') := by
  cases hps with
  | nil => exact .nil
  | cons hp hps =>
    cases hp with
    | op o => exact .cons (.op o) hps
    | paren => exact .cons .paren hps
    | call name => exact .cons (.call name) hps

/-! ## Runs -/

/-- Runs without their sign agree: they are the same, or neither is a number. In the name
    of a call they are the same. If cells are looked at, the cell has moved. -/
structure BodyAgree (cells : Bool) (move : CellRef → CellRef) (named : Bool)
    (body body' : List Char) : Prop where
  text : body' = body ∨ named = false ∧ Worded body ∧ Worded body'
  cell : named = false → cells = true →
    CellRef.ofChars? body' = (CellRef.ofChars? body).map move

variable {named : Bool}

namespace BodyAgree

variable {body body' : List Char}

theorem nil : BodyAgree cells move named [] [] :=
  ⟨.inl rfl, fun _ _ => by rw [nil_spells_none]; rfl⟩

theorem eq_nil_iff (h : BodyAgree cells move named body body') : body = [] ↔ body' = [] := by
  rcases h.text with rfl | ⟨-, hworded, hworded'⟩
  · exact Iff.rfl
  · exact iff_of_false hworded.ne_nil hworded'.ne_nil

/-- Runs agree after a character outside words. -/
theorem snoc (h : BodyAgree cells move named body body') {d : Char} (hd : isAlnum d = false) :
    BodyAgree cells move named (body ++ [d]) (body' ++ [d]) where
  text := by
    rcases h.text with rfl | ⟨hnamed, hworded, hworded'⟩
    · exact .inl rfl
    · exact .inr ⟨hnamed, hworded.append _, hworded'.append _⟩
  cell _ _ := by
    rw [ofChars?_eq_none_of_mem (d := d) (by simp) hd,
      ofChars?_eq_none_of_mem (d := d) (by simp) hd]
    rfl

end BodyAgree

/-- Runs agree behind the same sign. Runs are kept backwards. -/
inductive RunAgree (cells : Bool) (move : CellRef → CellRef) (named : Bool) :
    List Char → List Char → Prop where
  | mk (negative : Bool) {body body' : List Char} (h : BodyAgree cells move named body body')
    (hbody : ∀ c ∈ body, isGathered c = true) (hbody' : ∀ c ∈ body', isGathered c = true) :
    RunAgree cells move named (signChars negative ++ body).reverse
      (signChars negative ++ body').reverse

namespace RunAgree

variable {run run' : List Char}

theorem nil : RunAgree cells move named [] [] := .mk false .nil (by simp) (by simp)

theorem minus : RunAgree cells move named ['-'] ['-'] := .mk true .nil (by simp) (by simp)

theorem eq_nil_iff (h : RunAgree cells move named run run') : run = [] ↔ run' = [] := by
  cases h with
  | mk negative h hbody hbody' => rw [signed_eq_nil_iff, signed_eq_nil_iff, h.eq_nil_iff]

theorem eq_minus_iff (h : RunAgree cells move named run run') : run = ['-'] ↔ run' = ['-'] := by
  cases h with
  | mk negative h hbody hbody' =>
    rw [signed_eq_minus_iff hbody, signed_eq_minus_iff hbody', h.eq_nil_iff]

/-- Runs agree after a character outside words. -/
theorem snoc (h : RunAgree cells move named run run') {d : Char} (hd : isAlnum d = false)
    (hgathered : isGathered d = true) : RunAgree cells move named (d :: run) (d :: run') := by
  cases h with
  | mk negative h hbody hbody' =>
    have hrun := RunAgree.mk negative (h.snoc hd)
      (List.forall_mem_append.2 ⟨hbody, by simpa using hgathered⟩)
      (List.forall_mem_append.2 ⟨hbody', by simpa using hgathered⟩)
    rwa [reverse_gather, reverse_gather] at hrun

/-- What an operand leaves is decided by the run without its sign. -/
theorem landmark?_operand (negative : Bool) {body : List Char}
    (hbody : ∀ c ∈ body, isGathered c = true) :
    (Token.operand (String.ofList (signChars negative ++ body))).landmark? cells =
      if (Number.ofText? (String.ofList (signChars negative ++ body))).isSome then
        some (.number (String.ofList (signChars negative ++ body)))
      else if cells then (CellRef.ofChars? body).map (.cell negative) else none := by
  rw [Token.landmark?, signChars_append_head negative hbody, ofText?_ofList]

/-- The ends of runs leave the same landmark, outside the names of calls. -/
theorem output (h : RunAgree cells move false run run') {out out' : List Token}
    (hout : OutputAgree cells move out out') :
    OutputAgree cells move (.operand (String.ofList run.reverse) :: out)
      (.operand (String.ofList run'.reverse) :: out') := by
  cases h with
  | mk negative h hbody hbody' =>
    rename_i body body'
    have hcell (hcells : cells = true) :
        (CellRef.ofChars? body').map (Landmark.cell negative) =
          ((CellRef.ofChars? body).map (Landmark.cell negative)).map (Landmark.map move) := by
      rw [h.cell rfl hcells, Option.map_map, Option.map_map]
      rfl
    have hlandmark : (Token.operand (String.ofList (signChars negative ++ body'))).landmark? cells =
        ((Token.operand (String.ofList (signChars negative ++ body))).landmark? cells).map
          (Landmark.map move) := by
      rw [landmark?_operand negative hbody, landmark?_operand negative hbody']
      rcases h.text with rfl | ⟨-, hworded, hworded'⟩
      · split
        · rfl
        · split
          · rename_i hcells
            exact hcell hcells
          · rfl
      · rw [hworded.ofText?_eq_none, hworded'.ofText?_eq_none]
        simp only [Option.isSome_none, Bool.false_eq_true, if_false]
        split
        · rename_i hcells
          exact hcell hcells
        · rfl
    unfold OutputAgree
    rw [List.reverse_reverse, List.reverse_reverse, landmarks_cons, landmarks_cons, hlandmark,
      List.map_append, hout, Option.toList_map]

end RunAgree

/-! ## States -/

/-- The last characters agree, or both gather. -/
def PreviousAgree (p p' : Option Char) : Prop :=
  p' = p ∨ ∃ c c', p = some c ∧ p' = some c' ∧ isGathered c = true ∧ isGathered c' = true

/-- States with the same landmarks. If cells are looked at, no range is open. -/
structure StateAgree (cells : Bool) (move : CellRef → CellRef) (named : Bool)
    (s s' : Converter) : Prop where
  output : OutputAgree cells move s.output s'.output
  stack : List.Forall₂ PendingAgree s.stack s'.stack
  run : RunAgree cells move named s.run s'.run
  previous : PreviousAgree s.previous s'.previous
  rangeStart : cells = true → s.rangeStart = none ∧ s'.rangeStart = none
  quote : s'.quote = s.quote

namespace StateAgree

/-- Without a run it does not matter what comes next. -/
theorem of_run_nil {named' : Bool} (h : StateAgree cells move named s s') (hrun : s.run = []) :
    StateAgree cells move named' s s' := by
  refine { h with run := ?_ }
  rw [hrun, h.run.eq_nil_iff.1 hrun]
  exact .nil

theorem expectsOperand_eq (h : StateAgree cells move named s s') :
    s'.expectsOperand = s.expectsOperand := by
  rcases h.previous with heq | ⟨c, c', hc, hc', hgathered, hgathered'⟩
  · unfold expectsOperand
    rw [heq]
  · rw [expectsOperand_gathered hc hgathered, expectsOperand_gathered hc' hgathered']

theorem previous_eq_iff (h : StateAgree cells move named s s') :
    s'.previous = some '&' ↔ s.previous = some '&' := by
  rcases h.previous with heq | ⟨c, c', hc, hc', hgathered, hgathered'⟩
  · rw [heq]
  · have hnot {d : Char} (hd : isGathered d = true) : ¬some d = some '&' := by
      rintro ⟨⟩
      exact absurd hd (by decide)
    rw [hc, hc']
    exact iff_of_false (hnot hgathered') (hnot hgathered)

end StateAgree

end Converter

end Formula

end Worksheet
