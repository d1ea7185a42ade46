import Worksheet.Proofs.Formula.Approximation

/-!
# Plain Evaluation

Evaluation without anything that keeps it in bounds, and what the bounded one
has to do with it.

Plain evaluation follows references with nothing but the path that led to a
cell. It keeps no value, counts nothing and stops only at a cell that is on
its path. It ends because a sheet has finitely many formulas and a path enters
each of them at most once.

The bounded evaluation differs in two ways. It cuts chains off, and then its
answer is circular where the plain one may go on, so it can only approximate.
And it keeps values, which were found along one path, and hands them out along
another. That is harmless because of what the two paths have to do with each
other: a cell is kept only after it was left, and a cell that is kept is never
entered again, so a path at hand never runs through the cells that a kept value
was computed from. `Sound` says this without mentioning how the value was
found: a kept value is the plain one along every path that avoids all kept
cells. A new value is plain along such a path because everything it was
computed from is kept or circular, and everything computed respects the order.

## Main definitions

* `FormulaCells`: Where the formulas of a sheet are.
* `plainValue`: Plain evaluation along a path.
* `Sound`: Kept values are plain.
* `Answers`: What evaluating something in a scope amounts to.

## Theorems

* `run_answers`: Running tokens, if resolving a cell answers plain evaluation.
* `sound_enter`, `sound_settle`, `leave_answers`: Entering a cell, keeping its value,
  and leaving it.
* `resolve_answers`: Resolving a cell answers plain evaluation.
* `evaluateCell_plain`: The bounded evaluation refines the plain one.
-/

namespace Worksheet

namespace Formula

/-- A resolver that takes values as given and keeps nothing. -/
def stateless (value : CellRef → Value) : Resolver := fun c s => (value c, s)

/-- Is the text a formula? -/
def isFormula (text : String) : Bool := text.toList.head? == some '='

/-- The value of a text, given the value of every cell. -/
def textValue (rangeCells : Nat) (value : CellRef → Value) (text : String) : Value :=
  (renderWith rangeCells (stateless value) text {}).1

/-- Finitely many cells, among them every one that holds a formula. -/
structure FormulaCells (lookup : Lookup) where
  cells : List CellRef
  covers : ∀ c, isFormula (lookup c) = true → c ∈ cells

/-- A cell that joins the path is no longer to be entered. -/
theorem length_filter_lt {cells path : List CellRef} {c : CellRef} (hc : c ∈ cells)
    (hp : c ∉ path) :
    (cells.filter fun d => d ∉ c :: path).length < (cells.filter fun d => d ∉ path).length := by
  have hsplit : cells.filter (fun d => d ∉ c :: path) =
      (cells.filter fun d => d ∉ path).filter fun d => d ≠ c := by
    rw [List.filter_filter]
    congr 1
    funext d
    simp
  rw [hsplit, List.length_filter_lt_length_iff_exists]
  exact ⟨c, by simp [hc, hp], by simp⟩

/-- The value of a cell along a path. A cell on the path is circular, and any
    other is evaluated with itself on the path. -/
def plainValue (rangeCells : Nat) (lookup : Lookup) (formulas : FormulaCells lookup)
    (path : List CellRef) (cell : CellRef) : Value :=
  if _hp : cell ∈ path then .failure .circular
  else if _hf : isFormula (lookup cell) then
    textValue rangeCells (fun c => plainValue rangeCells lookup formulas (cell :: path) c)
      (lookup cell)
  else Value.ofText (lookup cell)
termination_by (formulas.cells.filter fun c => c ∉ path).length
decreasing_by exact length_filter_lt (formulas.covers cell _hf) _hp

/-- A text that is no formula needs no cell. -/
theorem textValue_of_not_isFormula {rangeCells : Nat} {value : CellRef → Value} {text : String}
    (h : isFormula text = false) : textValue rangeCells value text = Value.ofText text := by
  unfold textValue renderWith
  split
  · rename_i body heq
    simp [isFormula, heq] at h
  · rfl

/-- Off the path, a cell has the value of its text with itself on the path. -/
theorem plainValue_of_not_mem {rangeCells : Nat} {lookup : Lookup} (formulas : FormulaCells lookup)
    {path : List CellRef} {cell : CellRef} (hp : cell ∉ path) :
    plainValue rangeCells lookup formulas path cell =
      textValue rangeCells (plainValue rangeCells lookup formulas (cell :: path))
        (lookup cell) := by
  rw [plainValue, dif_neg hp]
  by_cases hf : isFormula (lookup cell) = true
  · rw [dif_pos hf]
  · rw [dif_neg hf, textValue_of_not_isFormula (by simpa using hf)]

/-- On the path, a cell is circular. -/
theorem plainValue_of_mem {rangeCells : Nat} {lookup : Lookup} (formulas : FormulaCells lookup)
    {path : List CellRef} {cell : CellRef} (hp : cell ∈ path) :
    plainValue rangeCells lookup formulas path cell = .failure .circular := by
  rw [plainValue, dif_pos hp]

/-! ## What is kept -/

/-- No cell of the path is kept. -/
def Avoids (path : List CellRef) (s : Scope) : Prop := ∀ c ∈ path, s.settled[c]? = none

/-- No active cell is kept, and a kept value is the plain one along every path
    that avoids what is kept. -/
structure Sound (plain : List CellRef → CellRef → Value) (s : Scope) : Prop where
  apart : Avoids s.active s
  settled : ∀ path, Avoids path s → ∀ c v, s.settled[c]? = some v → plain path c = v

/-- What an evaluation may do to a scope: it leaves every cell it entered, keeps
    more and refuses more. -/
structure Leads (s s' : Scope) : Prop where
  active : s'.active = s.active
  settled : ∀ (c : CellRef) v, s.settled[c]? = some v → s'.settled[c]? = some v
  refused : ∃ more, s'.refused = more ++ s.refused

/-- Doing nothing is allowed. -/
theorem Leads.refl (s : Scope) : Leads s s := ⟨rfl, fun _ _ h => h, [], rfl⟩

/-- One evaluation after another is allowed. -/
theorem Leads.trans {s s' s'' : Scope} (h : Leads s s') (h' : Leads s' s'') : Leads s s'' := by
  rcases h.refused with ⟨more, hmore⟩
  rcases h'.refused with ⟨more', hmore'⟩
  exact ⟨h'.active.trans h.active, fun c v hv => h'.settled c v (h.settled c v hv),
    more' ++ more, by rw [hmore', hmore, List.append_assoc]⟩

/-- A path that avoids what is kept in the end avoids what was kept before. -/
theorem Leads.avoids {s s' : Scope} (h : Leads s s') {path : List CellRef} (hp : Avoids path s') :
    Avoids path s := by
  intro c hc
  cases hs : s.settled[c]? with
  | none => rfl
  | some v =>
    have hnone := hp c hc
    rw [h.settled c v hs] at hnone
    exact absurd hnone (by simp)

/-- If two evaluations refused nothing together, neither did one of them. -/
theorem Leads.refused_eq {s s' s'' : Scope} (h : Leads s s') (h' : Leads s' s'')
    (heq : s''.refused = s.refused) : s'.refused = s.refused ∧ s''.refused = s'.refused := by
  rcases h.refused with ⟨more, hmore⟩
  rcases h'.refused with ⟨more', hmore'⟩
  have hnil : more' ++ more = [] := by
    rw [hmore', hmore, ← List.append_assoc] at heq
    exact List.append_cancel_right (heq.trans (List.nil_append _).symm)
  rw [List.append_eq_nil_iff] at hnil
  rw [hmore', hmore, hnil.1, hnil.2]
  exact ⟨rfl, rfl⟩

/-- The answer approximates the value along every path that avoids what is kept
    afterwards, and if nothing was refused, it is the value along the active
    path. -/
structure Answers (plain : List CellRef → CellRef → Value) (s : Scope) (r : Value × Scope)
    (value : List CellRef → Value) : Prop where
  sound : Sound plain r.2
  leads : Leads s r.2
  approximates : ∀ path, Avoids path r.2 → Approximates r.1 (value path)
  exact : r.2.refused = s.refused → r.1 = value s.active

/-! ## Evaluation -/

/-- Running tokens, if resolving a cell answers plain evaluation. The other
    stack is the one that plain evaluation would have, so it depends on the
    path. -/
theorem run_answers {plain : List CellRef → CellRef → Value} {resolve : Resolver}
    {active : List CellRef}
    (hresolve : ∀ c s, Sound plain s → s.active = active →
      Answers plain s (resolve c s) fun path => plain path c)
    (ts : List Token) (us : List Value) (s : Scope) (hs : Sound plain s) (ha : s.active = active) :
    Sound plain (run resolve ts us s).2 ∧ Leads s (run resolve ts us s).2 ∧
      (∀ path vs t, Avoids path (run resolve ts us s).2 → List.Forall₂ Approximates us vs →
        Approximates (run resolve ts us s).1 (run (stateless (plain path)) ts vs t).1) ∧
      ((run resolve ts us s).2.refused = s.refused → ∀ t,
        (run resolve ts us s).1 = (run (stateless (plain s.active)) ts us t).1) := by
  induction ts generalizing us s with
  | nil => exact ⟨hs, .refl s, fun _ _ _ _ h => stackValue_approximates h, fun _ _ => rfl⟩
  | cons token ts ih =>
    rcases action?_cases token with ⟨text, rfl⟩ | ⟨act, hact⟩
    -- An operand is a value of its own or a cell that is resolved first.
    · simp only [run, operand_eq]
      cases meaning (splitSign text).2 with
      | value w =>
        rcases ih (signed (splitSign text).1 w :: us) s hs ha with
          ⟨hsound, hleads, happrox, hexact⟩
        exact ⟨hsound, hleads, fun path vs t hp h => happrox path _ t hp (.cons (.refl _) h),
          hexact⟩
      | cell c =>
        have hstep := hresolve c s hs ha
        rcases ih (signed (splitSign text).1 (resolve c s).1 :: us) (resolve c s).2 hstep.sound
          (hstep.leads.active.trans ha) with ⟨hsound, hleads, happrox, hexact⟩
        refine ⟨hsound, hstep.leads.trans hleads, fun path vs t hp h => ?_, fun heq t => ?_⟩
        -- The path avoids what was kept in the end, so also what was kept when the cell was left.
        · have hv := hstep.approximates path (hleads.avoids hp)
          exact happrox path _ t hp (.cons (signed_approximates _ hv) h)
        -- Nothing was refused at the cell nor after it, so both answers are exact.
        · rcases hstep.leads.refused_eq hleads heq with ⟨hfirst, hrest⟩
          refine (hexact hrest t).trans ?_
          rw [hstep.exact hfirst, hstep.leads.active]
          rfl
    · simp only [run_action hact]
      cases hus : act us with
      -- Too few values for the token: then there are too few on the other stack as well.
      | none =>
        refine ⟨hs, .refl s, fun path vs t hp h => ?_, fun _ _ => rfl⟩
        have hrel := action_approximates hact h
        rw [hus] at hrel
        cases hvs : act vs with
        | none => exact .refl _
        | some vs' =>
          rw [hvs] at hrel
          exact absurd hrel (by rintro ⟨⟩)
      | some us' =>
        rcases ih us' s hs ha with ⟨hsound, hleads, happrox, hexact⟩
        refine ⟨hsound, hleads, fun path vs t hp h => ?_, hexact⟩
        have hrel := action_approximates hact h
        rw [hus] at hrel
        cases hvs : act vs with
        | none =>
          rw [hvs] at hrel
          exact absurd hrel (by rintro ⟨⟩)
        | some vs' =>
          rw [hvs] at hrel
          cases hrel with
          | some hrel => exact happrox path vs' t hp hrel

/-- Rendering a text answers the value of the text. -/
theorem renderWith_answers {plain : List CellRef → CellRef → Value} {resolve : Resolver}
    {active : List CellRef}
    (hresolve : ∀ c s, Sound plain s → s.active = active →
      Answers plain s (resolve c s) fun path => plain path c)
    (rangeCells : Nat) (text : String) (s : Scope) (hs : Sound plain s) (ha : s.active = active) :
    Answers plain s (renderWith rangeCells resolve text s)
      fun path => textValue rangeCells (plain path) text := by
  unfold textValue renderWith
  split
  · rename_i body _
    rcases run_answers hresolve (postfixOf rangeCells body) [] s hs ha with
      ⟨hsound, hleads, happrox, hexact⟩
    exact ⟨hsound, hleads, fun path hp => happrox path [] {} hp .nil, fun h => hexact h {}⟩
  · exact ⟨hs, .refl s, fun _ _ => .refl _, fun _ => rfl⟩

variable (limits : Limits) {lookup : Lookup} (formulas : FormulaCells lookup)

/-- Keeping a value on leaving its cell. Along a path that avoids it, the cell
    has its plain value with itself on the path, and that longer path avoids
    everything that was kept before. -/
theorem sound_settle {rangeCells : Nat} {s : Scope} {cell : CellRef} {active : List CellRef}
    {v : Value}
    (hs : Sound (plainValue rangeCells lookup formulas) s) (ha : s.active = cell :: active)
    (hnew : cell ∉ active)
    (hv : v ≠ .failure .circular)
    (happrox : ∀ path, Avoids path s →
      Approximates v
        (textValue rangeCells (plainValue rangeCells lookup formulas path) (lookup cell))) :
    Sound (plainValue rangeCells lookup formulas)
      { s with active, settled := s.settled.insert cell v } := by
  -- The cell was active until now, so it was not kept before.
  have hcell : s.settled[cell]? = none := hs.apart cell (by simp [ha])
  have havoids {path : List CellRef}
      (hp : Avoids path { s with active, settled := s.settled.insert cell v }) :
      cell ∉ path ∧ Avoids path s := by
    refine ⟨fun hmem => ?_, fun c hc => ?_⟩
    · have hnone := hp cell hmem
      simp at hnone
    · have hnone := hp c hc
      simp only [Std.HashMap.getElem?_insert] at hnone
      split at hnone
      · exact absurd hnone (by simp)
      · exact hnone
  refine ⟨fun c hc => ?_, fun path hp c w hw => ?_⟩
  · have hne : cell ≠ c := fun h => hnew (h ▸ hc)
    simp only [Std.HashMap.getElem?_insert, beq_iff_eq, hne, if_false]
    exact hs.apart c (by rw [ha]; exact List.mem_cons_of_mem _ hc)
  · rcases havoids hp with ⟨hmem, hpath⟩
    simp only [Std.HashMap.getElem?_insert, beq_iff_eq] at hw
    by_cases hc : cell = c
    · rw [if_pos hc, Option.some.injEq] at hw
      subst hc hw
      rw [plainValue_of_not_mem formulas hmem]
      -- A value that is not circular is equal to what it approximates.
      refine ((happrox (cell :: path) fun d hd => ?_).eq hv).symm
      rw [List.mem_cons] at hd
      rcases hd with rfl | hd
      · exact hcell
      · exact hpath d hd
    · rw [if_neg hc] at hw
      exact hs.settled path hpath c w hw

/-- A cell that is entered joins the chain. -/
theorem sound_enter {plain : List CellRef → CellRef → Value} {s : Scope} {cell : CellRef}
    (hs : Sound plain s) (hsettled : s.settled[cell]? = none) :
    Sound plain { s with active := cell :: s.active, resolved := s.resolved.push cell } := by
  refine ⟨fun c hc => ?_, hs.settled⟩
  rcases List.mem_cons.1 hc with rfl | hc
  · exact hsettled
  · exact hs.apart c hc

/-- Leaving a cell with the answer to its text answers plain evaluation of the cell. -/
theorem leave_answers {rangeCells : Nat} {s : Scope} {cell : CellRef} (hmem : cell ∉ s.active)
    (hsettled : s.settled[cell]? = none) {v : Value} {t : Scope}
    (hans : Answers (plainValue rangeCells lookup formulas)
      { s with active := cell :: s.active, resolved := s.resolved.push cell } (v, t)
      fun path => textValue rangeCells (plainValue rangeCells lookup formulas path) (lookup cell)) :
    Answers (plainValue rangeCells lookup formulas) s
      (if v = .failure .circular then (v, { t with active := t.active.erase cell })
      else (v, { t with active := t.active.erase cell, settled := t.settled.insert cell v }))
      fun path => plainValue rangeCells lookup formulas path cell := by
  rcases hans with ⟨hsound, hleads, happrox, hexact⟩
  have hta : t.active = cell :: s.active := hleads.active
  -- On leaving, the cell is the innermost active one.
  have herase : t.active.erase cell = s.active := by rw [hta, List.erase_cons_head]
  have hplain : t.refused = s.refused →
      v = plainValue rangeCells lookup formulas s.active cell := by
    intro h
    rw [plainValue_of_not_mem formulas hmem]
    exact hexact h
  rw [herase]
  by_cases hv : v = .failure .circular
  · rw [if_pos hv]
    -- A circular answer is not kept.
    refine ⟨⟨fun c hc => ?_, hsound.settled⟩, ⟨rfl, hleads.settled, hleads.refused⟩,
      fun path hp => ?_, hplain⟩
    · exact hsound.apart c (by rw [hta]; exact List.mem_cons_of_mem _ hc)
    · exact hv ▸ .circular _
  · rw [if_neg hv]
    have hsettle := sound_settle formulas hsound hta hmem hv happrox
    refine ⟨hsettle, ⟨rfl, fun c w hw => ?_, hleads.refused⟩, fun path hp => ?_, hplain⟩
    -- What is kept stays, because the cell that is kept now was not kept before.
    · have hne : cell ≠ c := by
        rintro rfl
        rw [hsettled] at hw
        exact absurd hw (by simp)
      simp only [Std.HashMap.getElem?_insert, beq_iff_eq, hne, if_false]
      exact hleads.settled c w hw
    · exact .inr (hsettle.settled path hp cell v (by simp)).symm

/-- Resolving a cell answers plain evaluation. The fuel outlasts the chain, so
    it is never what cuts an evaluation off. -/
theorem resolve_answers (fuel : Nat) (cell : CellRef) (s : Scope)
    (hs : Sound (plainValue limits.rangeCells lookup formulas) s) (hpos : 0 < fuel)
    (hfuel : limits.depth < fuel + s.active.length) :
    Answers (plainValue limits.rangeCells lookup formulas) s (resolve limits lookup fuel cell s)
      fun path => plainValue limits.rangeCells lookup formulas path cell := by
  induction fuel generalizing cell s with
  | zero => exact absurd hpos (Nat.lt_irrefl 0)
  | succ fuel ih =>
    unfold resolve
    by_cases hactive : s.active.contains cell = true
    · rw [if_pos hactive]
      have hmem : cell ∈ s.active := by simpa using hactive
      exact ⟨hs, .refl s, fun path _ => .circular _,
        fun _ => (plainValue_of_mem formulas hmem).symm⟩
    · rw [if_neg hactive]
      have hmem : cell ∉ s.active := by simpa using hactive
      cases hsettled : s.settled[cell]? with
      | some v =>
        exact ⟨hs, .refl s, fun path hp => .inr (hs.settled path hp cell v hsettled).symm,
          fun _ => (hs.settled s.active hs.apart cell v hsettled).symm⟩
      | none =>
        by_cases hlimit : limits.depth ≤ s.active.length ∨ limits.resolutions ≤ s.resolved.size
        · simp only [if_pos hlimit]
          refine ⟨⟨hs.apart, hs.settled⟩, ⟨rfl, fun _ _ h => h, [cell], rfl⟩,
            fun _ _ => .circular _,
            fun h => ?_⟩
          exact absurd h (by simp)
        · simp only [if_neg hlimit]
          rw [not_or, Nat.not_le] at hlimit
          have hans := renderWith_answers
            -- The evaluation below has less fuel and a longer chain, which comes to the same.
            (fun c t ht (hta : t.active = cell :: s.active) => ih c t ht (by omega)
              (by rw [hta, List.length_cons]; omega))
            limits.rangeCells (lookup cell) _ (sound_enter hs hsettled) rfl
          exact leave_answers formulas hmem hsettled hans

/-- The bounded evaluation refines the plain one: every value but the circular
    failure is the plain value, and if no limit cut anything off, so is that
    one. -/
theorem evaluateCell_plain (cell : CellRef) :
    ((evaluateCell limits lookup cell).1 ≠ .failure .circular →
      plainValue limits.rangeCells lookup formulas [] cell = (evaluateCell limits lookup cell).1) ∧
    ((evaluateCell limits lookup cell).2.refused = [] →
      plainValue limits.rangeCells lookup formulas [] cell =
        (evaluateCell limits lookup cell).1) := by
  have hstart : Sound (plainValue limits.rangeCells lookup formulas) { active := [cell] } :=
    ⟨fun c _ => by simp, fun path _ c v h => by simp at h⟩
  have hans := renderWith_answers
    (fun c t ht (hta : t.active = [cell]) =>
      resolve_answers limits formulas (limits.depth + 1) c t ht (Nat.succ_pos _) (by omega))
    limits.rangeCells (lookup cell) { active := [cell] } hstart rfl
  rw [plainValue_of_not_mem formulas (by simp)]
  refine ⟨fun hne => ?_, fun hrefused => ?_⟩
  · refine ((hans.approximates [cell] fun c hc => ?_).eq hne).symm
    exact hans.sound.apart c (by rw [hans.leads.active]; exact hc)
  · exact (hans.exact hrefused).symm

/-- A sheet with a formula in its first cell and nothing in the others. -/
def lone (formula : String) : Lookup := fun c => if c = .origin then formula else ""

/-- Its formulas are in its first cell. -/
def loneCells (formula : String) : FormulaCells (lone formula) where
  cells := [.origin]
  covers := fun c hc => by
    by_contra hne
    rw [List.mem_singleton] at hne
    rw [lone, if_neg hne] at hc
    cases hc

/-- A sum of numbers has its plain value. A cell that refers to itself is circular, and that
    is its plain value as well, because no limit has cut anything off. -/
theorem evaluateCell_plain_lone :
    ((evaluateCell {} (lone "=1+2") .origin).1 ≠ .failure .circular ∧
      plainValue ({} : Limits).rangeCells (lone "=1+2") (loneCells _) [] .origin = .number 3) ∧
    (evaluateCell {} (lone "=1+A1") .origin).2.refused = [] ∧
      plainValue ({} : Limits).rangeCells (lone "=1+A1") (loneCells _) [] .origin =
        .failure .circular := by
  have hsum := (evaluateCell_plain {} (loneCells "=1+2") .origin).1
  have hcircular := (evaluateCell_plain {} (loneCells "=1+A1") .origin).2
  have hvalue : (evaluateCell {} (lone "=1+2") .origin).1 = .number 3 := by decide +kernel
  have hrefused : (evaluateCell {} (lone "=1+A1") .origin).2.refused = [] := by decide
  refine ⟨⟨by simp [hvalue], (hsum (by simp [hvalue])).trans hvalue⟩, hrefused,
    (hcircular hrefused).trans ?_⟩
  decide

end Formula

end Worksheet
