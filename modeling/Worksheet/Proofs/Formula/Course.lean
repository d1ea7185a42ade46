import Worksheet.Proofs.Formula.Plain

/-!
# The Course of an Evaluation

How an evaluation runs, written as rules without any bound on their depth.

Evaluating a text, running tokens and resolving a reference call each other, and
nothing in a sheet limits how deep or how often. `Evaluates` has one rule for each
thing that can happen, and only the limits that the evaluation itself looks at. A
derivation is an evaluation that ended. It also keeps an account of two things that
the evaluation does not report: which cells were looked up, one after the other,
and how many cells were being evaluated at any time.

The evaluator recurses on a bound, and the bound is never what stops it. A cell is
entered only while the chain is shorter than its greatest length, so with every step
down the chain comes as much closer to that length as the bound comes to zero. So
every evaluation has a derivation, and what holds of evaluations is shown by
induction on the rules: a lookup is paid for out of the budget that all branches
share, a cell that joins the chain leaves it again, whichever way its formula ends,
and no cell is looked up while it is on the chain.

## Main definitions

* `Scope.enter`, `Scope.leave`: A cell joins the chain and leaves it.
* `Task`, `Task.perform`: What there is to evaluate, and what it comes to.
* `Evaluates`: The rules.
* `Ends`: A result that an evaluation came to within its bounds.

## Theorems

* `Evaluates.leads`, `Evaluates.resolved_eq`, `Evaluates.length_le`: What an
  evaluation does to its scope, and what it looks up.
* `Evaluates.eq_perform`: The rules describe nothing but the evaluation.
* `exists_evaluates`: Every evaluation has a derivation.
* `evaluation_ends`: Every evaluation ends, within its limits.
-/

namespace Worksheet

namespace Formula

/-! ## Steps -/

/-- A cell joins the chain and is looked up. -/
def Scope.enter (s : Scope) (c : CellRef) : Scope :=
  { s with active := c :: s.active, resolved := s.resolved.push c }

/-- A cell leaves the chain, and its value is kept unless it is circular. -/
def Scope.leave (s : Scope) (c : CellRef) (v : Value) : Scope :=
  if v = .failure .circular then { s with active := s.active.erase c }
  else { s with active := s.active.erase c, settled := s.settled.insert c v }

variable {limits : Limits} {lookup : Lookup} {s s' : Scope} {c : CellRef} {v : Value}

@[simp] theorem active_leave (s : Scope) (c : CellRef) (v : Value) :
    (s.leave c v).active = s.active.erase c := by
  unfold Scope.leave
  split <;> rfl

@[simp] theorem resolved_leave (s : Scope) (c : CellRef) (v : Value) :
    (s.leave c v).resolved = s.resolved := by
  unfold Scope.leave
  split <;> rfl

@[simp] theorem refused_leave (s : Scope) (c : CellRef) (v : Value) :
    (s.leave c v).refused = s.refused := by
  unfold Scope.leave
  split <;> rfl

/-- A cell that is entered has the value of its text, and is left with it. -/
theorem resolve_entered (fuel : Nat) (hnew : c ∉ s.active) (hopen : s.settled[c]? = none)
    (hdepth : s.active.length < limits.depth) (hbudget : s.resolved.size < limits.resolutions) :
    Formula.resolve limits lookup (fuel + 1) c s =
      let r := renderWith limits.rangeCells (Formula.resolve limits lookup fuel) (lookup c)
        (s.enter c)
      (r.1, r.2.leave c r.1) := by
  have hactive : s.active.contains c = false := by simpa using hnew
  have hlimit : ¬(limits.depth ≤ s.active.length ∨ limits.resolutions ≤ s.resolved.size) := by
    omega
  rw [Formula.resolve, hactive, if_neg (by decide), hopen]
  simp only [if_neg hlimit, Scope.enter]
  rcases renderWith limits.rangeCells (Formula.resolve limits lookup fuel) (lookup c)
    { s with active := c :: s.active, resolved := s.resolved.push c } with ⟨v, s'⟩
  unfold Scope.leave
  split <;> rfl

/-! ## Rules -/

/-- What there is to evaluate. -/
inductive Task where
  | reference (c : CellRef)
  | text (content : String)
  | tokens (ts : List Token) (stack : List Value)

/-- What a task comes to, with a bound on the recursion. -/
def Task.perform (limits : Limits) (lookup : Lookup) (fuel : Nat) : Task → Scope → Value × Scope
  | .reference c => Formula.resolve limits lookup fuel c
  | .text content => renderWith limits.rangeCells (Formula.resolve limits lookup fuel) content
  | .tokens ts stack => run (Formula.resolve limits lookup fuel) ts stack

/-- Evaluating a task in a scope looks up these cells, in this order, and ends with a value
    and a scope; never more than `width` cells are being evaluated. -/
inductive Evaluates (limits : Limits) (lookup : Lookup) (width : Nat) :
    Task → Scope → List CellRef → Value → Scope → Prop where
  | circular {c : CellRef} {s : Scope} (h : c ∈ s.active) :
    Evaluates limits lookup width (.reference c) s [] (.failure .circular) s
  | settled {c : CellRef} {s : Scope} {v : Value} (hnew : c ∉ s.active)
    (h : s.settled[c]? = some v) :
    Evaluates limits lookup width (.reference c) s [] v s
  | refused {c : CellRef} {s : Scope} (hnew : c ∉ s.active) (hopen : s.settled[c]? = none)
    (h : limits.depth ≤ s.active.length ∨ limits.resolutions ≤ s.resolved.size) :
    Evaluates limits lookup width (.reference c) s [] (.failure .circular)
      { s with refused := c :: s.refused }
  | entered {c : CellRef} {s s' : Scope} {v : Value} {reads : List CellRef}
    (hnew : c ∉ s.active) (hopen : s.settled[c]? = none)
    (hdepth : s.active.length < limits.depth) (hbudget : s.resolved.size < limits.resolutions)
    (hwidth : (s.enter c).active.length ≤ width) :
    Evaluates limits lookup width (.text (lookup c)) (s.enter c) reads v s' →
      Evaluates limits lookup width (.reference c) s (c :: reads) v (s'.leave c v)
  | plain {text : String} {s : Scope} (h : text.toList.head? ≠ some '=') :
    Evaluates limits lookup width (.text text) s [] (Value.ofText text) s
  | formula {text : String} {body : List Char} {s s' : Scope} {v : Value} {reads : List CellRef}
    (h : text.toList = '=' :: body) :
    Evaluates limits lookup width (.tokens (postfixOf limits.rangeCells body) []) s reads v s' →
      Evaluates limits lookup width (.text text) s reads v s'
  | done {stack : List Value} {s : Scope} :
    Evaluates limits lookup width (.tokens [] stack) s [] (stackValue stack) s
  | value {text : String} {ts : List Token} {stack : List Value} {s s' : Scope} {v w : Value}
    {reads : List CellRef} (h : meaning (splitSign text).2 = .value w) :
    Evaluates limits lookup width (.tokens ts (signed (splitSign text).1 w :: stack)) s reads v
        s' →
      Evaluates limits lookup width (.tokens (.operand text :: ts) stack) s reads v s'
  | cell {text : String} {ts : List Token} {stack : List Value} {c : CellRef} {s s' s'' : Scope}
    {v w : Value} {reads reads' : List CellRef} (h : meaning (splitSign text).2 = .cell c) :
    Evaluates limits lookup width (.reference c) s reads w s' →
      Evaluates limits lookup width (.tokens ts (signed (splitSign text).1 w :: stack)) s' reads'
        v s'' →
      Evaluates limits lookup width (.tokens (.operand text :: ts) stack) s (reads ++ reads') v
        s''
  | applied {t : Token} {ts : List Token} {act : List Value → Option (List Value)}
    {stack stack' : List Value} {s s' : Scope} {v : Value} {reads : List CellRef}
    (h : t.action? = some act) (hact : act stack = some stack') :
    Evaluates limits lookup width (.tokens ts stack') s reads v s' →
      Evaluates limits lookup width (.tokens (t :: ts) stack) s reads v s'
  | stuck {t : Token} {ts : List Token} {act : List Value → Option (List Value)}
    {stack : List Value} {s : Scope} (h : t.action? = some act) (hact : act stack = none) :
    Evaluates limits lookup width (.tokens (t :: ts) stack) s [] (.failure .value) s

namespace Evaluates

variable {width : Nat} {task : Task} {reads : List CellRef}

/-- An evaluation leaves the cells that it entered, keeps more and refuses more. -/
theorem leads (h : Evaluates limits lookup width task s reads v s') : Leads s s' := by
  induction h with
  | circular | settled | plain | done | stuck => exact .refl _
  | refused => exact ⟨rfl, fun _ _ h => h, [_], rfl⟩
  | @entered c s s' v _ hnew hopen _ _ _ _ ih =>
    refine ⟨?_, fun d w hd => ?_, ih.refused.imp fun more hmore => ?_⟩
    · rw [active_leave, ih.active, Scope.enter, List.erase_cons_head]
    -- The value that is kept now is of a cell that had none.
    · have hkept := ih.settled d w hd
      unfold Scope.leave
      split
      · exact hkept
      · have hne : c ≠ d := by
          rintro rfl
          rw [hopen] at hd
          cases hd
        simp only [Std.HashMap.getElem?_insert, beq_iff_eq, if_neg hne, hkept]
    · rw [refused_leave, hmore]
      rfl
  | formula _ _ ih | value _ _ ih | applied _ _ _ ih => exact ih
  | cell _ _ _ ih ih' => exact ih.trans ih'

/-- The cells that were looked up are those that the scope lists. -/
theorem resolved_eq (h : Evaluates limits lookup width task s reads v s') :
    s'.resolved.toList = s.resolved.toList ++ reads := by
  induction h with
  | circular | settled | refused | plain | done | stuck => exact (List.append_nil _).symm
  | entered _ _ _ _ _ _ ih =>
    rw [resolved_leave, ih, Scope.enter, Array.toList_push, List.append_assoc]
    rfl
  | formula _ _ ih | value _ _ ih | applied _ _ _ ih => exact ih
  | cell _ _ _ ih ih' => rw [ih', ih, List.append_assoc]

theorem size_resolved (h : Evaluates limits lookup width task s reads v s') :
    s'.resolved.size = s.resolved.size + reads.length := by
  rw [← Array.length_toList, h.resolved_eq, List.length_append, Array.length_toList]

/-- What is looked up is paid for out of the budget. -/
theorem length_le (h : Evaluates limits lookup width task s reads v s') :
    reads.length ≤ limits.resolutions - s.resolved.size := by
  induction h with
  | circular | settled | refused | plain | done | stuck => exact Nat.zero_le _
  | entered _ _ _ hbudget _ _ ih =>
    rw [Scope.enter, Array.size_push] at ih
    rw [List.length_cons]
    omega
  | formula _ _ ih | value _ _ ih | applied _ _ _ ih => exact ih
  -- The second part has only what the first one left.
  | cell _ hfirst _ ih ih' =>
    rw [hfirst.size_resolved] at ih'
    rw [List.length_append]
    omega

/-- No cell is looked up while it is being evaluated. -/
theorem not_mem_active (h : Evaluates limits lookup width task s reads v s') :
    ∀ c ∈ reads, c ∉ s.active := by
  induction h with
  | circular | settled | refused | plain | done | stuck => exact fun _ hc => absurd hc (by simp)
  | entered hnew _ _ _ _ _ ih =>
    refine List.forall_mem_cons.2 ⟨hnew, fun d hd hmem => ?_⟩
    exact ih d hd (List.mem_cons_of_mem _ hmem)
  | formula _ _ ih | value _ _ ih | applied _ _ _ ih => exact ih
  | cell _ hfirst _ ih ih' =>
    rw [hfirst.leads.active] at ih'
    intro c hc
    exact (List.mem_append.1 hc).elim (ih c) (ih' c)

/-- The rules describe nothing but the evaluation, with any bound on the recursion that
    is large enough. -/
theorem eq_perform (h : Evaluates limits lookup width task s reads v s') (fuel : Nat)
    (hpos : 0 < fuel) (hfuel : limits.depth < fuel + s.active.length) :
    task.perform limits lookup fuel s = (v, s') := by
  rcases Nat.exists_eq_succ_of_ne_zero hpos.ne' with ⟨fuel, rfl⟩
  induction h generalizing fuel with
  | circular hc =>
    rw [Task.perform, Formula.resolve, if_pos (by simpa using hc)]
  | settled hnew hkept =>
    rw [Task.perform, Formula.resolve, if_neg (by simpa using hnew), hkept]
  | refused hnew hopen hlimit =>
    rw [Task.perform, Formula.resolve, if_neg (by simpa using hnew), hopen]
    simp only [if_pos hlimit]
  | @entered c s s' v _ hnew hopen hdepth hbudget _ _ ih =>
    -- The chain is longer and the bound smaller, which comes to the same.
    obtain ⟨fuel, rfl⟩ : ∃ n, fuel = n + 1 := ⟨fuel - 1, by omega⟩
    have hbelow := ih fuel (Nat.succ_pos _) (by simp only [Scope.enter, List.length_cons]; omega)
    rw [Task.perform] at hbelow
    rw [Task.perform, resolve_entered _ hnew hopen hdepth hbudget, hbelow]
  | plain hplain =>
    rw [Task.perform, renderWith]
    split
    · rename_i hbody
      rw [hbody] at hplain
      exact absurd rfl hplain
    · rfl
  | formula hbody _ ih =>
    rw [Task.perform, renderWith, hbody]
    exact ih fuel hpos hfuel
  | done => rfl
  | value hvalue _ ih =>
    rw [Task.perform, run_value hvalue]
    exact ih fuel hpos hfuel
  | cell hcell hfirst _ ih ih' =>
    have hresolved := ih fuel hpos hfuel
    rw [Task.perform] at hresolved
    rw [Task.perform, run_cell hcell, hresolved]
    exact ih' fuel hpos (by rw [hfirst.leads.active]; exact hfuel)
  | applied hact hstack _ ih =>
    rw [Task.perform, run_action hact, hstack]
    exact ih fuel hpos hfuel
  | stuck hact hstack =>
    rw [Task.perform, run_action hact, hstack]
    rfl

end Evaluates

/-! ## Evaluations -/

/-- Running tokens has a derivation if resolving a cell has one, wherever it is asked for. -/
theorem exists_evaluates_tokens {fuel width : Nat} {active : List CellRef}
    (hresolve : ∀ c s, s.active = active → ∃ reads, Evaluates limits lookup width (.reference c) s
      reads (Formula.resolve limits lookup fuel c s).1 (Formula.resolve limits lookup fuel c s).2)
    (ts : List Token) (stack : List Value) (s : Scope) (ha : s.active = active) :
    ∃ reads, Evaluates limits lookup width (.tokens ts stack) s reads
      (run (Formula.resolve limits lookup fuel) ts stack s).1
      (run (Formula.resolve limits lookup fuel) ts stack s).2 := by
  induction ts generalizing stack s with
  | nil => exact ⟨[], .done⟩
  | cons t ts ih =>
    rcases action?_cases t with ⟨text, rfl⟩ | ⟨act, hact⟩
    · cases hmeaning : meaning (splitSign text).2 with
      | value w =>
        rw [run_value hmeaning]
        rcases ih (signed (splitSign text).1 w :: stack) s ha with ⟨reads, hrest⟩
        exact ⟨reads, .value hmeaning hrest⟩
      | cell c =>
        rw [run_cell hmeaning]
        rcases hresolve c s ha with ⟨reads, hcell⟩
        rcases ih
          (signed (splitSign text).1 (Formula.resolve limits lookup fuel c s).1 :: stack)
          (Formula.resolve limits lookup fuel c s).2 (hcell.leads.active.trans ha) with
          ⟨reads', hrest⟩
        exact ⟨reads ++ reads', .cell hmeaning hcell hrest⟩
    · rw [run_action hact]
      cases hstack : act stack with
      | none => exact ⟨[], .stuck hact hstack⟩
      | some stack' =>
        rcases ih stack' s ha with ⟨reads, hrest⟩
        exact ⟨reads, .applied hact hstack hrest⟩

/-- Rendering a text has a derivation if resolving a cell has one. -/
theorem exists_evaluates_text {fuel width : Nat} {active : List CellRef}
    (hresolve : ∀ c s, s.active = active → ∃ reads, Evaluates limits lookup width (.reference c) s
      reads (Formula.resolve limits lookup fuel c s).1 (Formula.resolve limits lookup fuel c s).2)
    (text : String) (s : Scope) (ha : s.active = active) :
    ∃ reads, Evaluates limits lookup width (.text text) s reads
      (renderWith limits.rangeCells (Formula.resolve limits lookup fuel) text s).1
      (renderWith limits.rangeCells (Formula.resolve limits lookup fuel) text s).2 := by
  unfold renderWith
  split
  · rename_i body hbody
    rcases exists_evaluates_tokens hresolve (postfixOf limits.rangeCells body) [] s ha with
      ⟨reads, h⟩
    exact ⟨reads, .formula hbody h⟩
  · rename_i hplain
    refine ⟨[], .plain fun hhead => ?_⟩
    rcases List.head?_eq_some_iff.1 hhead with ⟨body, hbody⟩
    exact hplain body hbody

/-- Resolving a cell has a derivation, by induction on the bound. -/
theorem exists_evaluates_reference {width : Nat} (hwidth : limits.depth ≤ width) (fuel : Nat)
    (c : CellRef) (s : Scope) (hpos : 0 < fuel) (hfuel : limits.depth < fuel + s.active.length) :
    ∃ reads, Evaluates limits lookup width (.reference c) s reads
      (Formula.resolve limits lookup fuel c s).1 (Formula.resolve limits lookup fuel c s).2 := by
  induction fuel generalizing c s with
  | zero => exact absurd hpos (Nat.lt_irrefl 0)
  | succ fuel ih =>
    by_cases hnew : c ∈ s.active
    · rw [Formula.resolve, if_pos (by simpa using hnew)]
      exact ⟨[], .circular hnew⟩
    · cases hopen : s.settled[c]? with
      | some v =>
        rw [Formula.resolve, if_neg (by simpa using hnew), hopen]
        exact ⟨[], .settled hnew hopen⟩
      | none =>
        by_cases hlimit : limits.depth ≤ s.active.length ∨ limits.resolutions ≤ s.resolved.size
        · rw [Formula.resolve, if_neg (by simpa using hnew), hopen]
          simp only [if_pos hlimit]
          exact ⟨[], .refused hnew hopen hlimit⟩
        · rw [not_or, Nat.not_le, Nat.not_le] at hlimit
          rw [resolve_entered fuel hnew hopen hlimit.1 hlimit.2]
          rcases exists_evaluates_text
            (fun d t (ht : t.active = (s.enter c).active) => ih d t (by omega)
              (by rw [ht]; simp only [Scope.enter, List.length_cons]; omega))
            (lookup c) (s.enter c) rfl with ⟨reads, h⟩
          refine ⟨c :: reads, .entered hnew hopen hlimit.1 hlimit.2 ?_ h⟩
          simp only [Scope.enter, List.length_cons]
          omega

/-- Every evaluation has a derivation, with no more cells at once than a chain may have. -/
theorem exists_evaluates {width fuel : Nat} (hwidth : limits.depth ≤ width) (task : Task)
    (s : Scope) (hpos : 0 < fuel) (hfuel : limits.depth < fuel + s.active.length) :
    ∃ reads, Evaluates limits lookup width task s reads (task.perform limits lookup fuel s).1
      (task.perform limits lookup fuel s).2 := by
  have hresolve (c : CellRef) (t : Scope) (ht : t.active = s.active) :
      ∃ reads, Evaluates limits lookup width (.reference c) t reads
        (Formula.resolve limits lookup fuel c t).1 (Formula.resolve limits lookup fuel c t).2 :=
    exists_evaluates_reference hwidth fuel c t hpos (by rw [ht]; exact hfuel)
  cases task with
  | reference c => exact hresolve c s rfl
  | text text => exact exists_evaluates_text hresolve text s rfl
  | tokens ts stack => exact exists_evaluates_tokens hresolve ts stack s rfl

/-- The text that a task begins with. -/
def Task.texts : Task → List String
  | .text content => [content]
  | _ => []

/-- An evaluation of a task in a scope came to this result, and it kept its bounds: it had at
    most `width` cells at once, it looked up at most `budget` cells, it left the cells being
    evaluated as they were, and the rules allow no other result. The result is the answer
    unless a text that was read cannot be converted, and then there is none. -/
structure Ends (limits : Limits) (lookup : Lookup) (width budget : Nat) (task : Task) (s : Scope)
    (r : Value × Scope) (answer : Option (Value × Scope)) : Prop where
  start : s.active.length ≤ width
  course : ∃ reads, Evaluates limits lookup width task s reads r.1 r.2 ∧ reads.length ≤ budget ∧
    answer = if ∀ text ∈ task.texts ++ reads.map lookup, IsConverted limits.rangeCells text
      then some r else none
  active : r.2.active = s.active
  unique : ∀ width' reads v s', Evaluates limits lookup width' task s reads v s' → (v, s') = r

/-- With a bound on the recursion that is large enough, an evaluation keeps its bounds. -/
theorem ends_perform {width fuel : Nat} (task : Task) (s : Scope) (hstart : s.active.length ≤ width)
    (hwidth : limits.depth ≤ width) (hpos : 0 < fuel)
    (hfuel : limits.depth < fuel + s.active.length) :
    Ends limits lookup width (limits.resolutions - s.resolved.size) task s
      (task.perform limits lookup fuel s)
      (answer? limits.rangeCells lookup task.texts s (task.perform limits lookup fuel s)) := by
  rcases exists_evaluates hwidth task s hpos hfuel with ⟨reads, h⟩
  -- The cells that the scope lists from here on are those that were looked up.
  have hlooked : (task.perform limits lookup fuel s).2.resolved.toList.drop s.resolved.size =
      reads := by
    rw [h.resolved_eq, ← Array.length_toList, List.drop_left]
  have hanswer : answer? limits.rangeCells lookup task.texts s (task.perform limits lookup fuel s) =
      if ∀ text ∈ task.texts ++ reads.map lookup, IsConverted limits.rangeCells text
        then some (task.perform limits lookup fuel s) else none := by
    simp only [answer?, hlooked]
  exact ⟨hstart, ⟨reads, h, h.length_le, hanswer⟩, h.leads.active,
    fun _ _ _ _ h' => (h'.eq_perform fuel hpos hfuel).symm⟩

/-- Every evaluation ends within its limits, whatever the sheet and the limits are: of a
    text, of a cell, for which its own lookup comes first, and of tokens in a scope that was
    used before. It ends with an answer if and only if there is an end to converting every
    text that it reads. -/
theorem evaluation_ends (limits : Limits) (lookup : Lookup) :
    (∀ text, Ends limits lookup (max 1 limits.depth) limits.resolutions (.text text) {}
      (render limits lookup text) (render? limits lookup text)) ∧
    (∀ cell, Ends limits lookup (max 1 limits.depth) limits.resolutions (.text (lookup cell))
      { active := [cell] } (evaluateCell limits lookup cell)
      (evaluateCell? limits lookup cell)) ∧
    ∀ ts stack s, Ends limits lookup (max s.active.length limits.depth)
      (limits.resolutions - s.resolved.size) (.tokens ts stack) s
      (run (resolver limits lookup) ts stack s) (run? limits lookup ts stack s) := by
  refine ⟨fun text => ?_, fun cell => ?_, fun ts stack s => ?_⟩
  · exact ends_perform (.text text) {} (Nat.zero_le _) (Nat.le_max_right _ _)
      (Nat.succ_pos limits.depth) (Nat.lt_succ_self _)
  · exact ends_perform (.text (lookup cell)) { active := [cell] } (Nat.le_max_left _ _)
      (Nat.le_max_right _ _) (Nat.succ_pos limits.depth) (by omega)
  · exact ends_perform (.tokens ts stack) s (Nat.le_max_left _ _) (Nat.le_max_right _ _)
      (Nat.succ_pos limits.depth) (by omega)

/-- The cells of a square with sides of 2 ^ 32 are counted as none, so there is no end to
    listing them and the sum of them has no answer. -/
theorem render?_square :
    (Range.spanning .origin (UInt32.size - 1) (UInt32.size - 1)).tally = 0 ∧
      render? {} (fun _ => "") "=SUM(A1:MWLQKWV4294967296)" = none := by
  refine ⟨rfl, ?_⟩
  rw [← Option.isNone_iff_eq_none]
  decide +kernel

end Formula

end Worksheet
