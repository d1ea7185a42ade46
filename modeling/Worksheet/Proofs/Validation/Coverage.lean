import Mathlib.Data.List.Induction
import Worksheet.Proofs.Address.Difference
import Worksheet.Validation.Rules

/-!
# What Rules Cover

The rules of a sheet, read off the changes that were made to them.

What a rule covers is stored as a list of ranges, and every change cuts these ranges
into pieces, so after a few changes the list says little. The changes themselves say
more. A validator covers a cell when a range that holds the cell was added for it, and no
range that holds the cell was removed since. And the validators come in the order in
which they were first added, since a rule keeps its place even when it covers nothing
any more.

Both are kept by one change. Cutting a range out of a rule leaves exactly the cells
outside of it, in pieces that are disjoint if the ranges were, and a range that is added
is cut out first, so it overlaps none of the pieces.

## Main definitions

* `RuleChange`: A range is added for a validator, or removed.
* `Rules.after`: The rules after changes to none.
* `Covered`: What the changes say about a validator and a cell.
* `firstAdd`: When a validator was first added.
* `Follows`: Rules that are what the changes say.

## Theorems

* `Rule.covers_cut`, `Rule.covers_cover`, `Rule.Disjoint.cut`, `Rule.Disjoint.cover`: One
  rule.
* `covered_concat_add`, `covered_concat_remove`: One more change.
* `Follows.add`, `Follows.remove`: Rules stay what the changes say.
* `Rules.after_covers`: What rules cover, and which of them decides.
-/

namespace Worksheet

/-- A change of the rules: a range is added for a validator, or removed. -/
inductive RuleChange where
  | add (mode : String) (x : Range) (v : Validator)
  | remove (x : Range)

/-- Is something added for a validator? -/
def RuleChange.adds (v : Validator) : RuleChange → Bool
  | .add _ _ v' => v' = v
  | .remove _ => false

namespace Rules

/-- Make a change. -/
def change (s : Rules) : RuleChange → Rules
  | .add mode x v => s.add mode x v
  | .remove x => s.remove x

/-- The rules after changes, when there are none to begin with. -/
def after (changes : List RuleChange) : Rules := changes.foldl change empty

end Rules

/-- Was a range that holds a cell added for a validator, and none that holds it removed
    since? -/
def Covered (changes : List RuleChange) (v : Validator) (c : CellRef) : Prop :=
  ∃ before mode x since, changes = before ++ .add mode x v :: since ∧ x.mem c = true ∧
    ∀ y, .remove y ∈ since → y.mem c = false

/-- The place of the first change that adds something for a validator. -/
def firstAdd (changes : List RuleChange) (v : Validator) : Nat :=
  changes.findIdx (RuleChange.adds v)

variable {changes : List RuleChange} {rules : List Rule} {mode : String} {x : Range}
  {v : Validator} {c : CellRef}

/-! ## One rule -/

namespace Rule

variable {r : Rule}

/-- Has no cell two of the ranges of a rule? -/
def Disjoint (r : Rule) : Prop :=
  r.refs.Pairwise fun x y => ∀ c, x.mem c = true → y.mem c = false

theorem covers_iff : r.covers c = true ↔ ∃ x ∈ r.refs, x.mem c = true := List.any_eq_true

/-- What is left of the ranges of a rule holds the cells that were covered before and are
    outside of what was cut out. -/
theorem exists_mem_cut_iff :
    (∃ p ∈ (r.cut x).refs, p.mem c = true) ↔
      (∃ y ∈ r.refs, y.mem c = true) ∧ x.mem c = false := by
  simp only [cut, List.mem_flatMap]
  constructor
  · rintro ⟨p, ⟨y, hy, hp⟩, hc⟩
    obtain ⟨hmem, hout⟩ := (Range.coversDifference y x c).1 ⟨p, hp, hc⟩
    exact ⟨⟨y, hy, hmem⟩, hout⟩
  · rintro ⟨⟨y, hy, hmem⟩, hout⟩
    obtain ⟨p, hp, hc⟩ := (Range.coversDifference y x c).2 ⟨hmem, hout⟩
    exact ⟨p, ⟨y, hy, hp⟩, hc⟩

theorem covers_cut : (r.cut x).covers c = true ↔ r.covers c = true ∧ x.mem c = false := by
  rw [covers_iff, covers_iff, exists_mem_cut_iff]

theorem covers_cover : (r.cover x).covers c = true ↔ r.covers c = true ∨ x.mem c = true := by
  rw [covers_iff, covers_iff]
  simp only [cover, List.mem_append, List.mem_singleton, or_and_right, exists_or,
    exists_eq_left, exists_mem_cut_iff]
  by_cases hx : x.mem c = true
  · simp [hx]
  · simp [hx]

/-- Pieces of ranges that have no cell in common have none either, and neither have two
    pieces of one range. -/
theorem Disjoint.cut (h : r.Disjoint) (x : Range) : (r.cut x).Disjoint := by
  refine List.pairwise_flatMap.2 ⟨fun y _ => ?_, h.imp fun {y z} hyz p hp q hq c hpc => ?_⟩
  · refine (Range.difference_pairwise y x).imp fun {p q} hpq c hpc => ?_
    refine Bool.eq_false_iff.2 fun hqc => ?_
    rw [Range.intersects_of_mem hpc hqc] at hpq
    cases hpq
  · refine Bool.eq_false_iff.2 fun hqc => ?_
    have hy := ((Range.coversDifference y x c).1 ⟨p, hp, hpc⟩).1
    have hz := ((Range.coversDifference z x c).1 ⟨q, hq, hqc⟩).1
    rw [hyz c hy] at hz
    cases hz

/-- What is added is cut out first. -/
theorem Disjoint.cover (h : r.Disjoint) (x : Range) : (r.cover x).Disjoint := by
  refine List.pairwise_append.2 ⟨h.cut x, List.pairwise_singleton _ _, fun p hp y hy c hpc => ?_⟩
  rw [List.mem_singleton.1 hy]
  exact (exists_mem_cut_iff.1 ⟨p, hp, hpc⟩).2

end Rule

/-! ## One more change -/

/-- Changes with one more at the end are divided at that one, or before it. -/
theorem concat_eq_append_cons {before since : List RuleChange} {e e' : RuleChange}
    (h : changes ++ [e] = before ++ e' :: since) :
    (since = [] ∧ e = e') ∨ ∃ since', since = since' ++ [e] ∧ changes = before ++ e' :: since' := by
  rcases List.eq_nil_or_concat since with rfl | ⟨since', last, rfl⟩
  · obtain ⟨-, hlast⟩ := List.append_inj' h rfl
    exact .inl ⟨rfl, List.singleton_inj.1 hlast⟩
  · rw [List.concat_eq_append, ← List.cons_append, ← List.append_assoc] at h
    obtain ⟨hbefore, hlast⟩ := List.append_inj' h rfl
    rw [List.singleton_inj.1 hlast, List.concat_eq_append]
    exact .inr ⟨since', rfl, hbefore⟩

/-- An addition covers its range for its validator, and takes nothing away. -/
theorem covered_concat_add {v' : Validator} :
    Covered (changes ++ [.add mode x v']) v c ↔ Covered changes v c ∨ v' = v ∧ x.mem c = true := by
  constructor
  · rintro ⟨before, mode', x', since, heq, hmem, hsince⟩
    -- The addition that counts is the last change, or an earlier one.
    rcases concat_eq_append_cons heq with ⟨rfl, hlast⟩ | ⟨since, rfl, hchanges⟩
    · cases hlast
      exact .inr ⟨rfl, hmem⟩
    · exact .inl ⟨before, mode', x', since, hchanges, hmem,
        fun y hy => hsince y (List.mem_append_left _ hy)⟩
  · rintro (⟨before, mode', x', since, rfl, hmem, hsince⟩ | ⟨rfl, hmem⟩)
    · refine ⟨before, mode', x', since ++ [.add mode x v'], by simp, hmem, fun y hy => hsince y ?_⟩
      simpa using hy
    · exact ⟨changes, mode, x, [], rfl, hmem, nofun⟩

/-- A removal takes its range away from every validator. -/
theorem covered_concat_remove :
    Covered (changes ++ [.remove x]) v c ↔ Covered changes v c ∧ x.mem c = false := by
  constructor
  · rintro ⟨before, mode', x', since, heq, hmem, hsince⟩
    rcases concat_eq_append_cons heq with ⟨-, hlast⟩ | ⟨since, rfl, hchanges⟩
    · cases hlast
    · exact ⟨⟨before, mode', x', since, hchanges, hmem,
        fun y hy => hsince y (List.mem_append_left _ hy)⟩, hsince x (by simp)⟩
  · rintro ⟨⟨before, mode', x', since, rfl, hmem, hsince⟩, hout⟩
    refine ⟨before, mode', x', since ++ [.remove x], by simp, hmem, fun y hy => ?_⟩
    rcases List.mem_append.1 hy with hy | hy
    · exact hsince y hy
    · cases List.mem_singleton.1 hy
      exact hout

theorem exists_concat_iff {e : RuleChange} : (∃ e' ∈ changes ++ [e], e'.adds v = true) ↔
    (∃ e' ∈ changes, e'.adds v = true) ∨ e.adds v = true := by
  simp only [List.mem_append, List.mem_singleton, or_and_right, exists_or, exists_eq_left]

/-- A validator for which something was added was first added before whatever comes
    next. -/
theorem firstAdd_lt_iff :
    firstAdd changes v < changes.length ↔ ∃ e ∈ changes, e.adds v = true :=
  List.findIdx_lt_length

/-- When a validator was first added does not change any more. -/
theorem firstAdd_concat (h : ∃ e ∈ changes, e.adds v = true) (e : RuleChange) :
    firstAdd (changes ++ [e]) v = firstAdd changes v := by
  have hlt : changes.findIdx (RuleChange.adds v) < changes.length := firstAdd_lt_iff.2 h
  rw [firstAdd, List.findIdx_append, if_pos hlt, firstAdd]

/-- A validator that is new was first added just now. -/
theorem firstAdd_concat_new (h : ¬∃ e ∈ changes, e.adds v = true) :
    firstAdd (changes ++ [.add mode x v]) v = changes.length := by
  have hlt : ¬changes.findIdx (RuleChange.adds v) < changes.length :=
    fun hlt => h (firstAdd_lt_iff.1 hlt)
  rw [firstAdd, List.findIdx_append, if_neg hlt]
  simp [List.findIdx_cons, RuleChange.adds]

/-! ## All rules -/

/-- Are rules what changes say? The validators are those for which something was added, in
    the order in which that happened first, and each covers what it is said to. -/
structure Follows (changes : List RuleChange) (rules : List Rule) : Prop where
  validators : ∀ v, (∃ r ∈ rules, r.validator = v) ↔ ∃ e ∈ changes, e.adds v = true
  ordered : rules.Pairwise fun r r' => firstAdd changes r.validator < firstAdd changes r'.validator
  disjoint : ∀ r ∈ rules, r.Disjoint
  covers : ∀ r ∈ rules, ∀ c, r.covers c = true ↔ Covered changes r.validator c

namespace Rules

theorem addTo_of_forall_ne (h : ∀ r ∈ rules, r.validator ≠ v) :
    addTo mode x v rules = rules ++ [⟨[x], mode, v⟩] := by
  induction rules with
  | nil => rfl
  | cons r rs ih =>
    rw [addTo, if_neg (h r List.mem_cons_self), ih fun r hr => h r (List.mem_cons_of_mem _ hr)]
    rfl

/-- Only one rule is changed when something is added for its validator. -/
theorem addTo_of_mem (hrules : rules.Pairwise fun r r' => r.validator ≠ r'.validator)
    (h : ∃ r ∈ rules, r.validator = v) :
    addTo mode x v rules = rules.map fun r => if r.validator = v then r.cover x else r := by
  induction rules with
  | nil =>
    obtain ⟨r, hr, -⟩ := h
    cases hr
  | cons r rs ih =>
    obtain ⟨hr, hrs⟩ := List.pairwise_cons.1 hrules
    rw [addTo, List.map_cons]
    split
    · rename_i hv
      have hothers : rs.map (fun r => if r.validator = v then r.cover x else r) = rs.map id :=
        List.map_congr_left fun r' hr' => if_neg fun hv' => hr r' hr' (hv.trans hv'.symm)
      rw [hothers, List.map_id]
    · rename_i hv
      rw [ih hrs ?_]
      obtain ⟨r', hr', hv'⟩ := h
      rcases List.mem_cons.1 hr' with rfl | hr'
      · exact absurd hv' hv
      · exact ⟨r', hr', hv'⟩

end Rules

namespace Follows

theorem empty : Follows [] [] :=
  ⟨by simp, .nil, nofun, nofun⟩

theorem pairwise_ne (h : Follows changes rules) :
    rules.Pairwise fun r r' => r.validator ≠ r'.validator := by
  refine h.ordered.imp fun {r r'} hlt heq => ?_
  rw [heq] at hlt
  exact Nat.lt_irrefl _ hlt

/-- A rule was first added for before whatever comes next. -/
theorem firstAdd_concat (h : Follows changes rules) {r : Rule} (hr : r ∈ rules) (e : RuleChange) :
    firstAdd (changes ++ [e]) r.validator = firstAdd changes r.validator :=
  Worksheet.firstAdd_concat ((h.validators _).1 ⟨r, hr, rfl⟩) e

/-- Rules stay what the changes say when each of them is changed in its place, and none of
    them is missing. -/
theorem map (h : Follows changes rules) {e : RuleChange} {f : Rule → Rule}
    (hf : ∀ r, (f r).validator = r.validator)
    (hadds : ∀ v, e.adds v = true → ∃ r ∈ rules, r.validator = v)
    (hdisjoint : ∀ r ∈ rules, (f r).Disjoint)
    (hcovers : ∀ r ∈ rules, ∀ c, (f r).covers c = true ↔ Covered (changes ++ [e]) r.validator c) :
    Follows (changes ++ [e]) (rules.map f) where
  validators v := by
    have hsame : (∃ r ∈ rules.map f, r.validator = v) ↔ ∃ r ∈ rules, r.validator = v := by
      simp only [List.mem_map, exists_exists_and_eq_and, hf]
    rw [hsame, exists_concat_iff, ← h.validators]
    exact ⟨.inl, fun hv => hv.elim id (hadds v)⟩
  ordered := by
    refine List.pairwise_map.2 (h.ordered.imp_of_mem fun {r r'} hr hr' hlt => ?_)
    rw [hf, hf, h.firstAdd_concat hr, h.firstAdd_concat hr']
    exact hlt
  disjoint := List.forall_mem_map.2 hdisjoint
  covers := List.forall_mem_map.2 fun r hr c => by rw [hf, hcovers r hr c]

/-- Rules stay what the changes say when a range is removed. -/
theorem remove (h : Follows changes rules) (x : Range) :
    Follows (changes ++ [.remove x]) (rules.map fun r => r.cut x) := by
  refine h.map (fun _ => rfl) (fun v hv => ?_) (fun r hr => (h.disjoint r hr).cut x)
    fun r hr c => ?_
  · cases hv
  · rw [Rule.covers_cut, h.covers r hr, covered_concat_remove]

/-- Rules stay what the changes say when a range is added for the validator of one. -/
theorem join (h : Follows changes rules) (mode : String) (x : Range)
    (hv : ∃ r ∈ rules, r.validator = v) :
    Follows (changes ++ [.add mode x v])
      (rules.map fun r => if r.validator = v then r.cover x else r) := by
  refine h.map (fun r => ?_) (fun v' hv' => ?_) (fun r hr => ?_) fun r hr c => ?_
  · split <;> rfl
  · rw [← of_decide_eq_true hv']
    exact hv
  · split
    · exact (h.disjoint r hr).cover x
    · exact h.disjoint r hr
  · rw [covered_concat_add, ← h.covers r hr]
    split
    · rename_i hv
      rw [Rule.covers_cover]
      simp [hv]
    · rename_i hv
      simp [Ne.symm hv]

/-- Rules stay what the changes say when a range is added for a new validator. -/
theorem extend (h : Follows changes rules) (mode : String) (x : Range)
    (hv : ∀ r ∈ rules, r.validator ≠ v) :
    Follows (changes ++ [.add mode x v]) (rules ++ [⟨[x], mode, v⟩]) := by
  have hnew : ¬∃ e ∈ changes, e.adds v = true := fun hadds => by
    obtain ⟨r, hr, heq⟩ := (h.validators v).2 hadds
    exact hv r hr heq
  refine ⟨fun v' => ?_, List.pairwise_append.2 ⟨?_, List.pairwise_singleton _ _, ?_⟩,
    fun r hr => ?_, fun r hr c => ?_⟩
  · rw [exists_concat_iff, ← h.validators]
    simp only [List.mem_append, List.mem_singleton, or_and_right, exists_or, exists_eq_left,
      RuleChange.adds, decide_eq_true_eq]
  · refine h.ordered.imp_of_mem fun {r r'} hr hr' hlt => ?_
    rw [h.firstAdd_concat hr, h.firstAdd_concat hr']
    exact hlt
  · intro r hr r' hr'
    rw [List.mem_singleton.1 hr', h.firstAdd_concat hr, firstAdd_concat_new hnew]
    exact firstAdd_lt_iff.2 ((h.validators _).1 ⟨r, hr, rfl⟩)
  · rcases List.mem_append.1 hr with hr | hr
    · exact h.disjoint r hr
    · rw [List.mem_singleton.1 hr]
      exact List.pairwise_singleton _ _
  · rw [covered_concat_add]
    rcases List.mem_append.1 hr with hr | hr
    · rw [← h.covers r hr]
      simp [Ne.symm (hv r hr)]
    · -- Nothing was said about the new validator before.
      have hnone : ¬Covered changes v c := fun ⟨before, mode', x', since, heq, _⟩ =>
        hnew ⟨.add mode' x' v, by simp [heq], by simp [RuleChange.adds]⟩
      rw [List.mem_singleton.1 hr]
      simp [Rule.covers, hnone]

/-- Rules stay what the changes say when a range is added. -/
theorem add (h : Follows changes rules) (mode : String) (x : Range) (v : Validator) :
    Follows (changes ++ [.add mode x v]) (Rules.addTo mode x v rules) := by
  by_cases hv : ∃ r ∈ rules, r.validator = v
  · rw [Rules.addTo_of_mem h.pairwise_ne hv]
    exact h.join mode x hv
  · have hne : ∀ r ∈ rules, r.validator ≠ v := fun r hr heq => hv ⟨r, hr, heq⟩
    rw [Rules.addTo_of_forall_ne hne]
    exact h.extend mode x hne

end Follows

namespace Rules

/-- The rules after changes are what the changes say. -/
theorem follows_after (changes : List RuleChange) : Follows changes (after changes).rules := by
  induction changes using List.reverseRecOn with
  | nil => exact .empty
  | append_singleton changes e ih =>
    have hstep : after (changes ++ [e]) = (after changes).change e := by
      rw [after, List.foldl_append]
      rfl
    rw [hstep]
    cases e with
    | add mode x v => exact ih.add mode x v
    | remove x => exact ih.remove x

/-- The rule that decides comes before all others that cover the cell. -/
theorem eq_or_firstAdd_lt (h : Follows changes rules) {r r' : Rule}
    (hr : rules.find? (fun r => r.covers c) = some r) (hr' : r' ∈ rules)
    (hcovers : r'.covers c = true) :
    r' = r ∨ firstAdd changes r.validator < firstAdd changes r'.validator := by
  obtain ⟨-, before, others, rfl, hbefore⟩ := List.find?_eq_some_iff_append.1 hr
  rcases List.mem_append.1 hr' with hr' | hr'
  · have hnot := hbefore r' hr'
    rw [hcovers] at hnot
    cases hnot
  · refine (List.mem_cons.1 hr').imp_right fun hr' => ?_
    exact (List.pairwise_cons.1 (List.pairwise_append.1 h.ordered).2.1).1 r' hr'

/-- After any additions and removals no two rules have equal validators, and no cell is in
    two of the ranges of a rule. A rule covers a cell just when a range that holds the cell
    was added for its validator, and none that holds it was removed since; a validator that
    covers a cell by this account has a rule. Of the rules that cover a cell the one whose
    validator was first added before those of the others decides. -/
theorem after_covers (changes : List RuleChange) :
    let s := after changes
    s.rules.Pairwise (fun r r' => r.validator ≠ r'.validator) ∧
    (∀ r ∈ s.rules, r.refs.Pairwise fun x y => ∀ c, x.mem c = true → y.mem c = false) ∧
    (∀ r ∈ s.rules, ∀ c, r.covers c = true ↔ Covered changes r.validator c) ∧
    (∀ v c, Covered changes v c → ∃ r ∈ s.rules, r.validator = v) ∧
    ∀ c r, s.ruleAt? c = some r ↔ r ∈ s.rules ∧ r.covers c = true ∧
      ∀ r' ∈ s.rules, r'.covers c = true →
        firstAdd changes r.validator ≤ firstAdd changes r'.validator := by
  intro s
  have h : Follows changes s.rules := follows_after changes
  refine ⟨h.pairwise_ne, h.disjoint, h.covers, fun v c hcovered => ?_, fun c r => ?_⟩
  · obtain ⟨before, mode, x, since, heq, -⟩ := hcovered
    exact (h.validators v).2 ⟨.add mode x v, by simp [heq], by simp [RuleChange.adds]⟩
  · constructor
    · intro hr
      have hcovers := List.find?_some (p := fun r : Rule => r.covers c) hr
      refine ⟨List.mem_of_find?_eq_some hr, hcovers, fun r' hr' hcovers' => ?_⟩
      rcases eq_or_firstAdd_lt h hr hr' hcovers' with rfl | hlt
      · exact Nat.le_refl _
      · exact Nat.le_of_lt hlt
    · rintro ⟨hr, hcovers, hfirst⟩
      -- Some rule decides, and it cannot come before this one.
      have hsome : (s.rules.find? fun r => r.covers c).isSome = true :=
        List.find?_isSome.2 ⟨r, hr, hcovers⟩
      obtain ⟨r', hr'⟩ := Option.isSome_iff_exists.1 hsome
      rcases eq_or_firstAdd_lt h hr' hr hcovers with rfl | hlt
      · exact hr'
      · have hcovers' := List.find?_some (p := fun r : Rule => r.covers c) hr'
        exact absurd hlt (Nat.not_lt.2 (hfirst r' (List.mem_of_find?_eq_some hr') hcovers'))

end Rules

end Worksheet
