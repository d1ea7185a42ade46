import Worksheet.Validation.Validator

/-!
# Validation Rules

Which validator covers which cells.

A rule is a validator with the ranges it covers. Adding a range to a validator
that a rule already has joins that rule, and the range is first cut out of
those the rule has, so that no cell is covered twice by one rule. Of several
rules that cover a cell the oldest decides. Removing cuts a range out of
every rule; a rule that covers nothing any more stays in the list, since its
place counts when the validator is used again, but is not saved.

A validation never stops an edit. It leaves a mark at the cell, which the
next validation of the cell replaces or removes.

## Main definitions

* `Rule`, `Rules`: Rules and the marks they have left.
* `Rules.add`, `Rules.remove`: Changing what is covered.
* `Rules.ruleAt?`, `Rules.validate`, `Rules.markAt?`: Checking a cell.
* `Rule.ofJson?`, `Rule.toJson`: A rule and its tree.
-/

namespace Worksheet

/-- A validator and the ranges it covers. -/
structure Rule where
  refs : List Range
  mode : String := "cell"
  validator : Validator
  deriving DecidableEq, Repr

namespace Rule

/-- Does the rule cover a cell? -/
def covers (r : Rule) (c : CellRef) : Bool := r.refs.any fun x => x.mem c

/-- Cut a range out of what the rule covers. -/
def cut (r : Rule) (x : Range) : Rule :=
  { r with refs := r.refs.flatMap fun y => y.difference x }

/-- Cover a range as well. -/
def cover (r : Rule) (x : Range) : Rule :=
  let r := r.cut x
  { r with refs := r.refs ++ [x] }

end Rule

/-- The rules of a sheet, the oldest first, and the marks they have left. -/
structure Rules where
  rules : List Rule := []
  marks : List (CellRef × Rejection) := []
  deriving DecidableEq, Repr

namespace Rules

/-- No rules and no marks. -/
def empty : Rules := {}

/-- Join a range to the first rule with this validator, or make a new rule. -/
def addTo (mode : String) (x : Range) (v : Validator) : List Rule → List Rule
  | [] => [⟨[x], mode, v⟩]
  | r :: rs => if r.validator = v then r.cover x :: rs else r :: addTo mode x v rs

/-- Let a validator cover a range. The mode is kept only for a new rule. -/
def add (s : Rules) (mode : String) (x : Range) (v : Validator) : Rules :=
  { s with rules := addTo mode x v s.rules }

/-- Let no rule cover a range. -/
def remove (s : Rules) (x : Range) : Rules :=
  { s with rules := s.rules.map fun r => r.cut x }

/-- The first rule that covers a cell. -/
def ruleAt? (s : Rules) (c : CellRef) : Option Rule := s.rules.find? fun r => r.covers c

/-- The mark at a cell. -/
def markAt? (s : Rules) (c : CellRef) : Option Rejection :=
  (s.marks.find? fun m => m.1 == c).map Prod.snd

/-- Why the rules refuse a text at a cell, or nothing. -/
def check (s : Rules) (c : CellRef) (text : String) : Option Rejection :=
  match s.ruleAt? c with
  | some r => r.validator.check text
  | none => none

/-- Check a text at a cell, and leave or remove the mark there. -/
def validate (s : Rules) (c : CellRef) (text : String) : Rules :=
  let others := s.marks.filter fun m => m.1 != c
  { s with marks := match s.check c text with
      | some e => (c, e) :: others
      | none => others }

/-- The rules that still cover something. -/
def saved (s : Rules) : List Rule := s.rules.filter fun r => !r.refs.isEmpty

/-- Rules that were saved, without marks. -/
def ofSaved (rules : List Rule) : Rules := ⟨rules, []⟩

end Rules

namespace Rule

open Json

/-- How deep the unknown fields of a rule may be nested. They are looked
    through for the fields of the validator, and a document is not followed
    any deeper. -/
def maxDepth : Nat := 124

/-- Read a rule. The fields of the validator stand in the same object, so all
    other fields are looked through and have to be readable. -/
def ofJson? (form : Form) : Json → Option Rule
  | .object fields => do
    let own := fields.filter fun f => f.1 == "refs" || f.1 == "mode"
    let rest := fields.filter fun f => !(f.1 == "refs" || f.1 == "mode")
    if ¬ (fieldsAreReadable rest ∧ fieldDepths rest ≤ maxDepth) then none
    let own ← record? form ["refs", "mode"] (.object own)
    return { refs := ← required? (list? range?) (find? "refs" own)
             mode := ← withDefault? text? "cell" (find? "mode" own)
             validator := ← Validator.ofJson? .shared (.object rest) }
  | _ => none

/-- The tree of a rule. -/
def toJson (r : Rule) : Json :=
  .object ([("refs", .array (r.refs.map ofRange)), ("mode", .string r.mode)] ++
    r.validator.toFields)

end Rule

end Worksheet
