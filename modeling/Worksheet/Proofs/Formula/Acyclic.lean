import Mathlib.Data.Set.Card
import Mathlib.Logic.Relation
import Worksheet.Proofs.Formula.Course
import Worksheet.Proofs.Formula.Failure

/-!
# Sheets Without Cycles

Where no cell leads back to itself, an evaluation looks every cell up once.

The circular failure is the one value that is not kept, so a cell that has it is
looked up again for every reference to it, and the lookups can double with every
step down a chain. Without a cycle this cannot happen, as long as no limit is
reached. The failure has two sources then: a formula that spells it, and a reference
to a cell of the chain. And a reference to a cell of the chain would close a cycle,
because every cell of the chain leads to whatever is evaluated below it.

`Once` is what an evaluation keeps up: no value that is kept is circular, and a cell
that was looked up is on the chain or has its value. A cell that is entered is
neither, so it is a new one.

## Main definitions

* `tokensOf`, `referredCells`: The tokens of a text, and the cells that it refers to.
* `Refers`, `Reaches`: A cell refers to another one, directly or in any number of steps.
* `Acyclic`: No cell that can be reached leads back to itself.
* `spellsCircular`: Is the circular failure spelled out in a formula?
* `Once`: What is known at any time, if no cell was looked up twice.
* `Task.Below`: A task that can come up below a chain.

## Theorems

* `acyclic_of_rank`: References that lead one way only.
* `Once.enter`, `Once.leave`: Entering a cell and leaving it.
* `Evaluates.once`: Off cycles, no value is circular and no cell is looked up twice.
* `evaluateCell_once`: Every cell that can be reached is looked up at most once.
-/

namespace Worksheet

namespace Formula

open Relation

/-! ## References -/

/-- The tokens of a text that is a formula. -/
def tokensOf (rangeCells : Nat) (text : String) : List Token :=
  match text.toList with
  | '=' :: body => postfixOf rangeCells body
  | _ => []

/-- The cells that a text refers to, those of its ranges included. -/
def referredCells (rangeCells : Nat) (text : String) : List CellRef :=
  (tokensOf rangeCells text).filterMap Token.cell?

/-- A cell refers to another one. -/
def Refers (rangeCells : Nat) (lookup : Lookup) (c d : CellRef) : Prop :=
  d ∈ referredCells rangeCells (lookup c)

/-- A cell leads to another one, or is that one. -/
def Reaches (rangeCells : Nat) (lookup : Lookup) : CellRef → CellRef → Prop :=
  ReflTransGen (Refers rangeCells lookup)

/-- No cell that can be reached from a cell leads back to itself. -/
def Acyclic (rangeCells : Nat) (lookup : Lookup) (start : CellRef) : Prop :=
  ∀ c, Reaches rangeCells lookup start c → ¬TransGen (Refers rangeCells lookup) c c

/-- Is the token an operand that spells the circular failure? -/
def Token.isCircular : Token → Bool
  | .operand text => match meaning (splitSign text).2 with
    | .value (.failure .circular) => true
    | _ => false
  | _ => false

/-- Is the circular failure spelled out in a formula? -/
def spellsCircular (rangeCells : Nat) (text : String) : Bool :=
  (tokensOf rangeCells text).any Token.isCircular

/-- Where every reference leads to a cell of a greater rank, no cell leads back to itself. -/
theorem acyclic_of_rank {rangeCells : Nat} {lookup : Lookup} (rank : CellRef → Nat)
    (h : ∀ c d, Refers rangeCells lookup c d → rank c < rank d) (start : CellRef) :
    Acyclic rangeCells lookup start := by
  intro c _ hcycle
  have hrank {d : CellRef} (hpath : TransGen (Refers rangeCells lookup) c d) :
      rank c < rank d := by
    induction hpath with
    | single hstep => exact h _ _ hstep
    | tail _ hstep ih => exact ih.trans (h _ _ hstep)
  exact (hrank hcycle).false

/-! ## Invariant -/

variable {limits : Limits} {lookup : Lookup} {start c : CellRef} {s s' : Scope} {v w : Value}
  {active : List CellRef} {ts : List Token} {stack : List Value} {text : String}

/-- What is known, if no cell was looked up twice: no value is circular, and a cell that
    was looked up is being evaluated or has its value. -/
structure Once (s : Scope) : Prop where
  settled : ∀ (c : CellRef) v, s.settled[c]? = some v → v ≠ .failure .circular
  found : ∀ c ∈ s.resolved, c ∈ s.active ∨ ∃ v, s.settled[c]? = some v
  nodup : s.resolved.toList.Nodup

/-- Nothing is known at first. -/
theorem Once.initial (active : List CellRef) : Once { active } where
  settled _ _ h := by simp at h
  found _ h := by simp at h
  nodup := List.nodup_nil

/-- A cell that is neither being evaluated nor has its value was not looked up before. -/
theorem Once.enter (h : Once s) (hnew : c ∉ s.active) (hopen : s.settled[c]? = none) :
    Once (s.enter c) where
  settled := h.settled
  found d hd := by
    rw [Scope.enter, Array.mem_push] at hd
    rcases hd with hd | rfl
    · exact (h.found d hd).imp_left (List.mem_cons_of_mem c)
    · exact .inl List.mem_cons_self
  nodup := by
    have hfresh : c ∉ s.resolved := by
      intro hc
      rcases h.found c hc with hmem | ⟨v, hv⟩
      · exact hnew hmem
      · rw [hopen] at hv
        cases hv
    rw [Scope.enter, Array.toList_push, List.nodup_append]
    refine ⟨h.nodup, List.nodup_singleton c, fun d hd e he => ?_⟩
    rw [List.mem_singleton] at he
    rintro rfl
    exact hfresh (he ▸ Array.mem_toList_iff.1 hd)

/-- A cell that is left has its value from then on. -/
theorem Once.leave (h : Once s) (hv : v ≠ .failure .circular) : Once (s.leave c v) := by
  rw [Scope.leave, if_neg hv]
  refine ⟨fun d w hw => ?_, fun d hd => ?_, h.nodup⟩
  · simp only [Std.HashMap.getElem?_insert, beq_iff_eq] at hw
    split at hw
    · cases hw
      exact hv
    · exact h.settled d w hw
  · simp only [Std.HashMap.getElem?_insert, beq_iff_eq]
    by_cases hcd : c = d
    · exact .inr ⟨v, if_pos hcd⟩
    · simp only [if_neg hcd]
      exact (h.found d hd).imp_left fun hmem => (List.mem_erase_of_ne (Ne.symm hcd)).2 hmem

/-! ## Tasks below a chain -/

/-- A token that is no operand puts no circular failure onto a stack without one. -/
theorem circular_mem_of_action {t : Token} {act : List Value → Option (List Value)}
    {stack stack' : List Value} (hact : t.action? = some act) (h : act stack = some stack')
    (hmem : .failure .circular ∈ stack') : .failure .circular ∈ stack := by
  cases t with
  | operand text => cases hact
  | quoted text =>
    cases hact
    cases h
    exact (List.mem_cons.1 hmem).resolve_left (by simp)
  | op o =>
    cases hact
    exact circular_mem_of_applyOp h hmem
  | func name arity | call name arity =>
    cases hact
    exact circular_mem_of_applyCall h hmem

/-- The cells that a task refers to. -/
def Task.cells (rangeCells : Nat) : Task → List CellRef
  | .reference c => [c]
  | .text content => referredCells rangeCells content
  | .tokens ts _ => ts.filterMap Token.cell?

/-- There is no circular failure at hand, neither spelled out nor on the stack. -/
def Task.Clear (rangeCells : Nat) : Task → Prop
  | .reference _ => True
  | .text content => spellsCircular rangeCells content = false
  | .tokens ts stack => ts.any Token.isCircular = false ∧ .failure .circular ∉ stack

/-- A task that can come up below a chain: every cell of the chain leads to every cell that
    the task refers to, and there is no circular failure at hand. -/
structure Task.Below (rangeCells : Nat) (lookup : Lookup) (active : List CellRef) (task : Task) :
    Prop where
  cells : ∀ d ∈ task.cells rangeCells, ∀ c ∈ active, TransGen (Refers rangeCells lookup) c d
  clear : task.Clear rangeCells

namespace Task.Below

variable {rangeCells : Nat}

/-- The text of a cell is below the chain that the cell has joined. -/
theorem enter (h : (Task.reference c).Below rangeCells lookup active)
    (hspell : spellsCircular rangeCells (lookup c) = false) :
    (Task.text (lookup c)).Below rangeCells lookup (c :: active) := by
  refine ⟨fun d hd a ha => ?_, hspell⟩
  have hstep : Refers rangeCells lookup c d := hd
  rcases List.mem_cons.1 ha with rfl | ha
  · exact .single hstep
  · exact (h.cells c List.mem_cons_self a ha).tail hstep

/-- The tokens of a text are where the text is. -/
theorem formula {body : List Char} (h : (Task.text text).Below rangeCells lookup active)
    (hbody : text.toList = '=' :: body) :
    (Task.tokens (postfixOf rangeCells body) []).Below rangeCells lookup active := by
  have htokens : tokensOf rangeCells text = postfixOf rangeCells body := by
    simp only [tokensOf, hbody]
  refine ⟨fun d hd => h.cells d ?_, ?_, List.not_mem_nil⟩
  · rw [Task.cells, referredCells, htokens]
    exact hd
  · rw [← htokens]
    exact h.clear

/-- What remains after a token, with a stack that has no circular failure. -/
theorem tail {t : Token} {stack' : List Value}
    (h : (Task.tokens (t :: ts) stack).Below rangeCells lookup active)
    (hstack : .failure .circular ∉ stack') :
    (Task.tokens ts stack').Below rangeCells lookup active := by
  refine ⟨fun d hd => h.cells d ?_, ?_, hstack⟩
  · rcases List.mem_filterMap.1 hd with ⟨u, hu, hcell⟩
    exact List.mem_filterMap.2 ⟨u, List.mem_cons_of_mem t hu, hcell⟩
  · have hclear := h.clear.1
    rw [List.any_cons, Bool.or_eq_false_iff] at hclear
    exact hclear.2

/-- A value that is not circular goes onto the stack, with a sign or without one. -/
theorem push (h : (Task.tokens (.operand text :: ts) stack).Below rangeCells lookup active)
    (negative : Bool) (hw : w ≠ .failure .circular) :
    (Task.tokens ts (signed negative w :: stack)).Below rangeCells lookup active := by
  refine h.tail fun hmem => ?_
  rcases List.mem_cons.1 hmem with hsigned | hrest
  · exact hw (eq_failure_of_signed hsigned.symm)
  · exact h.clear.2 hrest

/-- The first operand is not the circular failure. -/
theorem value_ne (h : (Task.tokens (.operand text :: ts) stack).Below rangeCells lookup active)
    (hmeaning : meaning (splitSign text).2 = .value w) : w ≠ .failure .circular := by
  rintro rfl
  have hclear := h.clear.1
  rw [List.any_cons, Token.isCircular, hmeaning] at hclear
  cases hclear

/-- The cell that the first operand refers to. -/
theorem reference (h : (Task.tokens (.operand text :: ts) stack).Below rangeCells lookup active)
    (hmeaning : meaning (splitSign text).2 = .cell c) :
    (Task.reference c).Below rangeCells lookup active := by
  refine ⟨fun d hd => h.cells d ?_, trivial⟩
  rw [Task.cells, List.mem_singleton] at hd
  subst hd
  refine List.mem_filterMap.2 ⟨.operand text, List.mem_cons_self, ?_⟩
  rw [Token.cell?, hmeaning]
  rfl

/-- A token that is no operand is applied to the stack. -/
theorem applied {t : Token} {act : List Value → Option (List Value)} {stack' : List Value}
    (h : (Task.tokens (t :: ts) stack).Below rangeCells lookup active)
    (hact : t.action? = some act) (hstack : act stack = some stack') :
    (Task.tokens ts stack').Below rangeCells lookup active :=
  h.tail fun hmem => h.clear.2 (circular_mem_of_action hact hstack hmem)

end Task.Below

/-! ## Evaluation -/

/-- Off cycles, no value is circular and no cell is looked up twice, unless something was
    refused. -/
theorem Evaluates.once {width : Nat} {task : Task} {reads : List CellRef}
    (hacyclic : Acyclic limits.rangeCells lookup start)
    (hspell : ∀ c, Reaches limits.rangeCells lookup start c →
      spellsCircular limits.rangeCells (lookup c) = false)
    (h : Evaluates limits lookup width task s reads v s') (hstart : start ∈ s.active)
    (hbelow : task.Below limits.rangeCells lookup s.active) (honce : Once s)
    (hrefused : s'.refused = s.refused) :
    v ≠ .failure .circular ∧ Once s' ∧
      ∀ d ∈ reads, Reaches limits.rangeCells lookup start d := by
  induction h with
  | @circular c s hc =>
    -- The cell is on the chain, and the chain leads to it.
    have hcycle := hbelow.cells c List.mem_cons_self c hc
    have hreach := (hbelow.cells c List.mem_cons_self start hstart).to_reflTransGen
    exact absurd hcycle (hacyclic c hreach)
  | settled _ hkept => exact ⟨honce.settled _ _ hkept, honce, by simp⟩
  | refused => exact absurd hrefused (by simp)
  | @entered c s s' v reads hnew hopen _ _ _ _ ih =>
    have hreach := (hbelow.cells c List.mem_cons_self start hstart).to_reflTransGen
    rw [refused_leave] at hrefused
    rcases ih (List.mem_cons_of_mem c hstart)
      (hbelow.enter (hspell c hreach)) (honce.enter hnew hopen) hrefused with ⟨hv, honce', hreads⟩
    exact ⟨hv, honce'.leave hv, List.forall_mem_cons.2 ⟨hreach, hreads⟩⟩
  | plain => exact ⟨ofText_ne_failure _ _, honce, by simp⟩
  | formula hbody _ ih => exact ih hstart (hbelow.formula hbody) honce hrefused
  | done => exact ⟨fun hv => hbelow.clear.2 (circular_mem_of_stackValue hv), honce, by simp⟩
  | value hmeaning _ ih =>
    exact ih hstart (hbelow.push _ (hbelow.value_ne hmeaning)) honce hrefused
  | cell hmeaning hfirst hrest ih ih' =>
    rcases hfirst.leads.refused_eq hrest.leads hrefused with ⟨hrefused, hrefused'⟩
    rcases ih hstart (hbelow.reference hmeaning) honce hrefused with ⟨hw, honce, hreads⟩
    rw [hfirst.leads.active] at ih'
    rcases ih' hstart (hbelow.push _ hw) honce hrefused' with ⟨hv, honce', hreads'⟩
    exact ⟨hv, honce', fun d hd => (List.mem_append.1 hd).elim (hreads d) (hreads' d)⟩
  | applied hact hstack _ ih => exact ih hstart (hbelow.applied hact hstack) honce hrefused
  | stuck => exact ⟨by simp, honce, by simp⟩

/-- Where no cell leads back to itself, no formula spells the circular failure out and
    nothing is refused, a cell has a value that is not circular, and its evaluation looks no
    cell up twice, itself included, and only cells that it leads to. -/
theorem evaluateCell_once (limits : Limits) (lookup : Lookup) (start : CellRef)
    (hacyclic : Acyclic limits.rangeCells lookup start)
    (hspell : ∀ c, Reaches limits.rangeCells lookup start c →
      spellsCircular limits.rangeCells (lookup c) = false)
    (hrefused : (evaluateCell limits lookup start).2.refused = []) :
    let lookups := start :: (evaluateCell limits lookup start).2.resolved.toList
    (evaluateCell limits lookup start).1 ≠ .failure .circular ∧ lookups.Nodup ∧
      (∀ c ∈ lookups, Reaches limits.rangeCells lookup start c) ∧
      lookups.length ≤ {c | Reaches limits.rangeCells lookup start c}.encard := by
  intro lookups
  obtain ⟨reads, h⟩ : ∃ reads, Evaluates limits lookup limits.depth (.text (lookup start))
      { active := [start] } reads (evaluateCell limits lookup start).1
      (evaluateCell limits lookup start).2 :=
    exists_evaluates le_rfl (.text (lookup start)) { active := [start] }
      (Nat.succ_pos limits.depth) (by simp only [List.length_singleton]; omega)
  have hbelow : (Task.text (lookup start)).Below limits.rangeCells lookup [start] := by
    refine ⟨fun d hd c hc => ?_, hspell start .refl⟩
    rw [List.mem_singleton] at hc
    exact hc ▸ .single hd
  rcases h.once hacyclic hspell (List.mem_singleton_self start) hbelow
    (.initial [start]) hrefused with ⟨hv, honce, hreads⟩
  have hresolved : (evaluateCell limits lookup start).2.resolved.toList = reads := h.resolved_eq
  have hnodup : lookups.Nodup := by
    refine List.nodup_cons.2 ⟨fun hmem => ?_, honce.nodup⟩
    rw [hresolved] at hmem
    exact h.not_mem_active start hmem (List.mem_singleton_self start)
  have hreach : ∀ c ∈ lookups, Reaches limits.rangeCells lookup start c := by
    refine List.forall_mem_cons.2 ⟨.refl, ?_⟩
    rw [hresolved]
    exact hreads
  refine ⟨hv, hnodup, hreach, ?_⟩
  -- The lookups are as many as the cells among them, and those can be reached.
  rw [← List.toFinset_card_of_nodup hnodup, ← Set.encard_coe_eq_coe_finsetCard]
  exact Set.encard_le_encard fun c hc => hreach c (List.mem_toFinset.1 hc)

/-- It is so for a cell that refers to another one twice, which is looked up once. -/
theorem evaluateCell_once_shared :
    let lookup : Lookup := fun c => if c = .origin then "=A2&A2" else "x"
    let limits : Limits := {}
    Acyclic limits.rangeCells lookup .origin ∧
      (∀ c, Reaches limits.rangeCells lookup .origin c →
        spellsCircular limits.rangeCells (lookup c) = false) ∧
      (evaluateCell limits lookup .origin).2.refused = [] ∧
      let lookups := CellRef.origin :: (evaluateCell limits lookup .origin).2.resolved.toList
      (evaluateCell limits lookup .origin).1 ≠ .failure .circular ∧ lookups.Nodup ∧
        (∀ c ∈ lookups, Reaches limits.rangeCells lookup .origin c) ∧
        lookups.length ≤ {c | Reaches limits.rangeCells lookup .origin c}.encard := by
  intro lookup limits
  have hbody : (lookup .origin).toList = '=' :: "A2&A2".toList := by decide
  have htokens : postfixOf limits.rangeCells "A2&A2".toList =
      [.operand "A2", .operand "A2", .op .concat] := by
    decide
  have hcell : meaning (splitSign "A2").2 = .cell ⟨1, 0⟩ := meaning_eq_cell_iff.2 (by decide)
  have hacyclic : Acyclic limits.rangeCells lookup .origin := by
    refine acyclic_of_rank CellRef.row (fun c d hstep => ?_) .origin
    by_cases hc : c = .origin
    · subst hc
      have hrefers : referredCells limits.rangeCells (lookup .origin) = [⟨1, 0⟩, ⟨1, 0⟩] := by
        decide
      rw [Refers, hrefers] at hstep
      simp only [List.mem_cons, List.not_mem_nil, or_false, or_self] at hstep
      subst hstep
      decide
    · have hrefers : referredCells limits.rangeCells "x" = [] := by decide
      simp only [Refers, lookup, if_neg hc, hrefers, List.not_mem_nil] at hstep
  have hspell (c : CellRef) (_ : Reaches limits.rangeCells lookup .origin c) :
      spellsCircular limits.rangeCells (lookup c) = false := by
    by_cases hc : c = .origin
    · rw [hc]
      decide
    · simp only [lookup, if_neg hc]
      decide
  -- The first reference enters the cell, and the second one finds its value.
  have hrefused : (evaluateCell limits lookup .origin).2.refused = [] := by
    let s : Scope := { active := [.origin] }
    let s' : Scope := (s.enter ⟨1, 0⟩).leave ⟨1, 0⟩ (Value.ofText "x")
    have hkept : s'.settled[(⟨1, 0⟩ : CellRef)]? = some (Value.ofText "x") := by
      simp only [s', Scope.leave, if_neg (ofText_ne_failure "x" .circular),
        Std.HashMap.getElem?_insert_self]
    have hactive : s'.active = [.origin] := active_leave _ _ _
    have hfirst : Evaluates limits lookup 2 (.reference ⟨1, 0⟩) s [⟨1, 0⟩] (Value.ofText "x") s' :=
      .entered (by decide) (by simp [s]) (by decide) (by decide) (by decide) (.plain (by decide))
    have hsecond : Evaluates limits lookup 2 (.reference ⟨1, 0⟩) s' [] (Value.ofText "x") s' :=
      .settled (by rw [hactive]; decide) hkept
    have hrun : Evaluates limits lookup 2
        (.tokens [.operand "A2", .operand "A2", .op .concat] []) s _ _ s' :=
      .cell hcell hfirst (.cell hcell hsecond (.applied rfl rfl .done))
    rw [← htokens] at hrun
    have hvalue :=
      (Evaluates.formula hbody hrun).eq_perform (limits.depth + 1) (by decide) (by decide)
    rw [Task.perform] at hvalue
    rw [evaluateCell, resolver, hvalue]
    exact refused_leave _ _ _
  exact ⟨hacyclic, hspell, hrefused,
    evaluateCell_once limits lookup .origin hacyclic hspell hrefused⟩

end Formula

end Worksheet
