import Worksheet.Proofs.Formula.Following

/-!
# Evaluation of Moved Cells

Evaluating a sheet after its cells have moved.

Two evaluations run side by side, one on the cells as they were and one on the
cells where they are now. The chains, the kept values and the number of
lookups correspond, so both stop at the same places, find the same cells
circular and run into the same limits. Only cells that are kept take part: no
token of their formulas refers to any other cell, and the movement tells them
apart.

Nothing here depends on what the movement is or on how the texts were
rewritten. All that is asked of two texts is that they are the same and no
formulas, or that their tokens correspond.

## Main definitions

* `ScopeFollows`: What two evaluations know corresponds.
* `TextFollows`: Texts of corresponding cells.
* `ResolverFollows`: Resolvers that answer alike.

## Theorems

* `operand_follows`, `run_follows`: Corresponding tokens give the same value.
* `resolve_follows`: Corresponding cells have the same value.
* `evaluateCell_follows`: So do whole evaluations.
-/

namespace Worksheet

namespace Formula

variable {move : CellRef → CellRef} {kept : CellRef → Prop}

/-- What two evaluations know corresponds, as far as the cells that are kept. -/
structure ScopeFollows (move : CellRef → CellRef) (kept : CellRef → Prop) (s s' : Scope) :
    Prop where
  active : s'.active = s.active.map move
  kept_active : ∀ c ∈ s.active, kept c
  settled : ∀ c, kept c → s'.settled[move c]? = s.settled[c]?
  resolved : s'.resolved.size = s.resolved.size

/-- The movement tells the cells apart that are kept. -/
def MovesApart (move : CellRef → CellRef) (kept : CellRef → Prop) : Prop :=
  ∀ a b, kept a → kept b → move a = move b → a = b

/-- Every token refers to a cell that is kept, if to any. -/
def RefersTo (kept : CellRef → Prop) (ts : List Token) : Prop :=
  ∀ t ∈ ts, ∀ c ∈ t.cell?, kept c

/-- The texts of corresponding cells: the same text without a formula, or
    formulas with corresponding tokens. -/
inductive TextFollows (move : CellRef → CellRef) (kept : CellRef → Prop) (rangeCells : Nat) :
    String → String → Prop where
  | plain {text : String} (h : text.toList.head? ≠ some '=') :
    TextFollows move kept rangeCells text text
  | formula {text text' : String} {body body' : List Char} (h : text.toList = '=' :: body)
    (h' : text'.toList = '=' :: body')
    (hfollows : List.Forall₂ (TokenFollows move) (postfixOf rangeCells body)
      (postfixOf rangeCells body'))
    (hkept : RefersTo kept (postfixOf rangeCells body)) :
    TextFollows move kept rangeCells text text'

/-- Resolvers that answer alike for corresponding cells, and leave the scopes
    corresponding. -/
def ResolverFollows (move : CellRef → CellRef) (kept : CellRef → Prop) (r r' : Resolver) : Prop :=
  ∀ c s s', kept c → ScopeFollows move kept s s' →
    (r' (move c) s').1 = (r c s).1 ∧ ScopeFollows move kept (r c s).2 (r' (move c) s').2

/-- Corresponding operands have the same value. -/
theorem operand_follows {r r' : Resolver} (hr : ResolverFollows move kept r r')
    {text text' : String}
    (h : TokenFollows move (.operand text) (.operand text'))
    (hkept : ∀ c ∈ (Token.operand text).cell?, kept c) {s s' : Scope}
    (hs : ScopeFollows move kept s s') :
    (operand r' text' s').1 = (operand r text s).1 ∧
      ScopeFollows move kept (operand r text s).2 (operand r' text' s').2 := by
  cases h with
  | operand hsign hmeaning =>
    rw [operand_eq, operand_eq, hsign, hmeaning]
    rw [Token.cell?] at hkept
    -- Only a cell reaches the resolvers, and it is one that is kept.
    cases hm : meaning (splitSign text).2 with
    | value v => exact ⟨rfl, hs⟩
    | cell c =>
      rw [hm] at hkept
      rcases hr c s s' (hkept c rfl) hs with ⟨hvalue, hscope⟩
      refine ⟨?_, hscope⟩
      show signed _ (r' (move c) s').1 = signed _ (r c s).1
      rw [hvalue]

/-- Corresponding names are called alike. -/
theorem NameFollows.applyCall_eq {name name' : String} (h : NameFollows name name') (arity : Nat)
    (stack : List Value) : applyCall name' arity stack = applyCall name arity stack := by
  rcases h with rfl | ⟨h, h'⟩
  · rfl
  · unfold applyCall callByName
    rw [h, h']

/-- Running corresponding tokens gives the same value. -/
theorem run_follows {r r' : Resolver} (hr : ResolverFollows move kept r r') {ts ts' : List Token}
    (h : List.Forall₂ (TokenFollows move) ts ts') (hkept : RefersTo kept ts) (stack : List Value)
    {s s' : Scope} (hs : ScopeFollows move kept s s') :
    (run r' ts' stack s').1 = (run r ts stack s).1 ∧
      ScopeFollows move kept (run r ts stack s).2 (run r' ts' stack s').2 := by
  induction h generalizing stack s s' with
  | nil => exact ⟨rfl, hs⟩
  | cons ht hts ih =>
    rename_i t t' ts ts'
    have hrest : RefersTo kept ts := fun u hu => hkept u (by simp [hu])
    cases ht with
    | operand hsign hmeaning =>
      rcases operand_follows hr (.operand hsign hmeaning) (hkept _ (by simp)) hs with
        ⟨hvalue, hscope⟩
      rw [run, run]
      simp only [hvalue]
      exact ih hrest _ hscope
    | quoted text =>
      rw [run, run]
      exact ih hrest _ hs
    | op o =>
      rw [run, run]
      cases applyOp o stack with
      | none => exact ⟨rfl, hs⟩
      | some stack => exact ih hrest stack hs
    | func arity hname =>
      rw [run, run, hname.applyCall_eq]
      cases applyCall _ arity stack with
      | none => exact ⟨rfl, hs⟩
      | some stack => exact ih hrest stack hs
    | call arity hname =>
      rw [run, run, hname.applyCall_eq]
      cases applyCall _ arity stack with
      | none => exact ⟨rfl, hs⟩
      | some stack => exact ih hrest stack hs

/-- Texts of corresponding cells have the same value. -/
theorem renderWith_follows {r r' : Resolver} (hr : ResolverFollows move kept r r')
    {rangeCells : Nat}
    {text text' : String} (h : TextFollows move kept rangeCells text text') {s s' : Scope}
    (hs : ScopeFollows move kept s s') :
    (renderWith rangeCells r' text' s').1 = (renderWith rangeCells r text s).1 ∧
      ScopeFollows move kept (renderWith rangeCells r text s).2
        (renderWith rangeCells r' text' s').2 := by
  cases h with
  | plain h =>
    unfold renderWith
    split
    · rename_i hbody
      rw [hbody] at h
      exact absurd rfl h
    · exact ⟨rfl, hs⟩
  | formula h h' hfollows hkept =>
    unfold renderWith
    rw [h, h']
    exact run_follows hr hfollows hkept [] hs

/-- Corresponding cells are found in corresponding chains. -/
theorem contains_map (hinj : MovesApart move kept) {cells : List CellRef}
    (hcells : ∀ c ∈ cells, kept c)
    {c : CellRef} (hc : kept c) : (cells.map move).contains (move c) = cells.contains c := by
  induction cells with
  | nil => rfl
  | cons d ds ih =>
    have hd := hcells d (by simp)
    rw [List.map_cons, List.contains_cons, List.contains_cons,
      ih fun e he => hcells e (by simp [he])]
    congr 1
    rw [Bool.eq_iff_iff, beq_iff_eq, beq_iff_eq]
    exact ⟨hinj c d hc hd, congrArg move⟩

/-- Corresponding cells leave corresponding chains. -/
theorem erase_map (hinj : MovesApart move kept) {cells : List CellRef}
    (hcells : ∀ c ∈ cells, kept c)
    {c : CellRef} (hc : kept c) : (cells.map move).erase (move c) = (cells.erase c).map move := by
  induction cells with
  | nil => rfl
  | cons d ds ih =>
    have hd := hcells d (by simp)
    by_cases heq : d = c
    · rw [heq, List.map_cons, List.erase_cons_head, List.erase_cons_head]
    · have hne : ¬ (move d == move c) = true := by
        rw [beq_iff_eq]
        exact fun h => heq (hinj d c hd hc h)
      rw [List.map_cons, List.erase_cons_tail hne, List.erase_cons_tail (by simpa using heq),
        List.map_cons, ih fun e he => hcells e (by simp [he])]

/-- Entering corresponding cells keeps scopes corresponding. -/
theorem ScopeFollows.enter {s s' : Scope} (hs : ScopeFollows move kept s s') {c : CellRef}
    (hc : kept c) :
    ScopeFollows move kept { s with active := c :: s.active, resolved := s.resolved.push c }
      { s' with active := move c :: s.active.map move
                resolved := s'.resolved.push (move c) } where
  active := rfl
  kept_active := by simpa [hc] using hs.kept_active
  settled := hs.settled
  resolved := by simp [hs.resolved]

/-- So does leaving them. -/
theorem ScopeFollows.leave (hinj : MovesApart move kept) {s s' : Scope}
    (hs : ScopeFollows move kept s s') {c : CellRef} (hc : kept c) :
    ScopeFollows move kept { s with active := s.active.erase c }
      { s' with active := s'.active.erase (move c) } :=
  { hs with
    active := by rw [hs.active, erase_map hinj hs.kept_active hc]
    kept_active := fun d hd => hs.kept_active d (List.mem_of_mem_erase hd) }

/-- So does keeping a value for both. -/
theorem ScopeFollows.keep (hinj : MovesApart move kept) {s s' : Scope}
    (hs : ScopeFollows move kept s s') {c : CellRef} (hc : kept c) (v : Value) :
    ScopeFollows move kept { s with settled := s.settled.insert c v }
      { s' with settled := s'.settled.insert (move c) v } := by
  refine { hs with settled := fun d hd => ?_ }
  -- Two kept cells have one key exactly if their moved cells have.
  have hkey : (move c == move d) = (c == d) := by
    rw [Bool.eq_iff_iff, beq_iff_eq, beq_iff_eq]
    exact ⟨hinj c d hc hd, congrArg move⟩
  simp only [Std.HashMap.getElem?_insert, hkey]
  rw [hs.settled d hd]

/-- Corresponding cells have the same value. The induction is on the bound of
    the recursion, which is the same for both. -/
theorem resolve_follows (hinj : MovesApart move kept) (limits : Limits) {lookup lookup' : Lookup}
    (htexts : ∀ c, kept c → TextFollows move kept limits.rangeCells (lookup c) (lookup' (move c)))
    (fuel : Nat) :
    ResolverFollows move kept (resolve limits lookup fuel) (resolve limits lookup' fuel) := by
  induction fuel with
  | zero => exact fun c s s' _ hs => ⟨rfl, hs⟩
  | succ fuel ih =>
    intro c s s' hc hs
    rw [resolve, resolve, hs.active, contains_map hinj hs.kept_active hc]
    by_cases hactive : s.active.contains c = true
    · rw [if_pos hactive, if_pos hactive]
      exact ⟨rfl, hs⟩
    · rw [if_neg hactive, if_neg hactive, hs.settled c hc]
      cases s.settled[c]? with
      | some v => exact ⟨rfl, hs⟩
      | none =>
        simp only
        -- Equally long chains and equally many cells resolved: the limits are met together.
        rw [List.length_map, hs.resolved]
        by_cases hlimit : limits.depth ≤ s.active.length ∨ limits.resolutions ≤ s.resolved.size
        · rw [if_pos hlimit, if_pos hlimit]
          exact ⟨rfl, { hs with active := rfl }⟩
        · rw [if_neg hlimit, if_neg hlimit]
          rcases renderWith_follows ih (htexts c hc) (hs.enter hc) with ⟨hvalue, hscope⟩
          rw [hvalue]
          generalize renderWith limits.rangeCells (resolve limits lookup fuel) (lookup c) _ = found
            at hscope
          generalize renderWith limits.rangeCells (resolve limits lookup' fuel) _ _ = found'
            at hscope
          by_cases hcircular : found.1 = .failure .circular
          · rw [if_pos hcircular, if_pos hcircular]
            exact ⟨rfl, hscope.leave hinj hc⟩
          · rw [if_neg hcircular, if_neg hcircular]
            exact ⟨rfl, (hscope.leave hinj hc).keep hinj hc found.1⟩

/-- Corresponding cells evaluate to the same value. -/
theorem evaluateCell_follows (hinj : MovesApart move kept) (limits : Limits)
    {lookup lookup' : Lookup}
    (htexts : ∀ c, kept c → TextFollows move kept limits.rangeCells (lookup c) (lookup' (move c)))
    {c : CellRef} (hc : kept c) :
    (evaluateCell limits lookup' (move c)).1 = (evaluateCell limits lookup c).1 := by
  have hstart : ScopeFollows move kept { active := [c] } { active := [move c] } :=
    { active := rfl
      kept_active := by simpa using hc
      settled := fun d _ => by simp
      resolved := rfl }
  exact (renderWith_follows (resolve_follows hinj limits htexts _) (htexts c hc) hstart).1

end Formula

end Worksheet
