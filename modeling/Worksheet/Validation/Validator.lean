import Worksheet.Json.Record
import Worksheet.Number.Notation
import Worksheet.Validation.Date
import Worksheet.Validation.Shape

/-!
# Validators

What may be typed into a cell.

A validator asks for a kind of text, and may compare it with one bound or
two. Blank text is only ever judged by whether something is required. A bound
that cannot be read does not restrict, and neither does one that the text
cannot be compared with.

## Main definitions

* `Validator`, `ValidatorKind`, `Comparison`: The rule of a cell.
* `Rejection`: Why a text is refused, with `Rejection.message`.
* `Validator.check`: Whether a text is refused, and why.
* `Validator.ofJson?`, `Validator.toJson`: A validator and its tree.
-/

namespace Worksheet

/-- The kinds of text. -/
inductive ValidatorKind where
  | date
  | number
  | list
  | phone
  | email
  deriving DecidableEq, Repr

/-- How a text is compared with the bounds. The two long words for the
    comparisons with two bounds are kept apart from the short ones, so that a
    rule is written as it was read. -/
inductive Comparison where
  | between
  | notBetween
  | equal
  | notEqual
  | less
  | lessOrEqual
  | greater
  | greaterOrEqual
  | betweenEnds
  | notBetweenEnds
  deriving DecidableEq, Repr

/-- The words for the kinds. -/
def ValidatorKind.words : List (String × ValidatorKind) :=
  [("date", .date), ("number", .number), ("list", .list), ("phone", .phone), ("email", .email)]

/-- The word for a kind. -/
def ValidatorKind.word : ValidatorKind → String
  | .date => "date"
  | .number => "number"
  | .list => "list"
  | .phone => "phone"
  | .email => "email"

/-- The words for the comparisons. -/
def Comparison.words : List (String × Comparison) :=
  [("b", .between), ("nb", .notBetween), ("eq", .equal), ("neq", .notEqual), ("lt", .less),
    ("lte", .lessOrEqual), ("gt", .greater), ("gte", .greaterOrEqual), ("be", .betweenEnds),
    ("nbe", .notBetweenEnds)]

/-- The word for a comparison. -/
def Comparison.word : Comparison → String
  | .between => "b"
  | .notBetween => "nb"
  | .equal => "eq"
  | .notEqual => "neq"
  | .less => "lt"
  | .lessOrEqual => "lte"
  | .greater => "gt"
  | .greaterOrEqual => "gte"
  | .betweenEnds => "be"
  | .notBetweenEnds => "nbe"

/-- Why a text is refused. -/
inductive Rejection where
  | required
  | notMatch
  | notIn
  | between (lo hi : String)
  | notBetween (lo hi : String)
  | equal (bound : String)
  | notEqual (bound : String)
  | less (bound : String)
  | lessOrEqual (bound : String)
  | greater (bound : String)
  | greaterOrEqual (bound : String)
  deriving DecidableEq, Repr

/-- What the user is told. -/
def Rejection.message : Rejection → String
  | .required => "it is required"
  | .notMatch => "it not match its validity rule"
  | .notIn => "it is not in list"
  | .between lo hi => "it is between " ++ lo ++ " and " ++ hi
  | .notBetween lo hi => "it is not between " ++ lo ++ " and " ++ hi
  | .equal bound => "it equal to " ++ bound
  | .notEqual bound => "it not equal to " ++ bound
  | .less bound => "it less than " ++ bound
  | .lessOrEqual bound => "it less than or equal to " ++ bound
  | .greater bound => "it greater than " ++ bound
  | .greaterOrEqual bound => "it greater than or equal to " ++ bound

/-- The rule of a cell. -/
structure Validator where
  kind : ValidatorKind
  /-- Is a blank text refused? -/
  required : Bool := false
  /-- The bound, two bounds around a comma, or the choices of a list. -/
  value : String := ""
  comparison : Option Comparison := none
  deriving DecidableEq, Repr

/-- A text as something that can be compared with a bound. -/
inductive Key where
  | date (d : Date)
  | number (x : Float)
  | text (s : String)

/-- How two keys compare, if they do. -/
def Key.order? : Key → Key → Option Ordering
  | .date a, .date b => some (a.order b)
  | .number x, .number y => if x < y then some .lt else if y < x then some .gt else some .eq
  | .text s, .text t => some (compare s t)
  | _, _ => none

namespace Validator

/-- The choices of a list. -/
def choices (v : Validator) : List String :=
  (Text.splitOn ',' v.value.toList).map String.ofList

/-- What a text is compared as. -/
def key? (v : Validator) (s : String) : Option Key :=
  match v.kind with
  | .date => (Date.read? (Text.trimChars s.toList)).map .date
  | .number => (Number.ofText? s).map .number
  | _ => some (.text (Text.trim s))

/-- Has the text the shape that the kind asks for? -/
def fits (v : Validator) (s : String) : Bool :=
  match v.kind with
  | .phone => Shape.isPhone s.toList
  | .email => Shape.isEmail s.toList
  | .date | .number => (v.key? s).isSome
  | .list => true

/-- The two bounds; one bound without a comma is both. -/
def bounds (v : Validator) : String × String :=
  match Text.cutAt ',' v.value.toList with
  | some (lo, hi) => (String.ofList lo, String.ofList hi)
  | none => (v.value, v.value)

/-- How a key compares with a bound, if the bound can be read. -/
def against? (v : Validator) (k : Key) (bound : String) : Option Ordering :=
  match v.key? bound with
  | some b => k.order? b
  | none => none

/-- Refuse a key whose comparison with the bound does not hold. -/
def checkOne (v : Validator) (k : Key) (holds : Ordering → Bool) (rejection : String → Rejection) :
    Option Rejection :=
  match v.against? k v.value with
  | some o => if holds o then none else some (rejection v.value)
  | none => none

/-- Refuse a key that is not inside the two bounds, or that is. -/
def checkTwo (v : Validator) (k : Key) (wantInside : Bool) : Option Rejection :=
  let (lo, hi) := v.bounds
  match v.against? k lo, v.against? k hi with
  | some a, some b =>
    let inside := a.isGE && b.isLE
    if wantInside && !inside then some (.between lo hi)
    else if !wantInside && inside then some (.notBetween lo hi)
    else none
  | _, _ => none

/-- Compare a key as the validator asks. -/
def checkKey (v : Validator) (k : Key) : Comparison → Option Rejection
  | .between | .betweenEnds => v.checkTwo k true
  | .notBetween | .notBetweenEnds => v.checkTwo k false
  | .equal => v.checkOne k Ordering.isEq .equal
  | .notEqual => v.checkOne k Ordering.isNe .notEqual
  | .less => v.checkOne k Ordering.isLT .less
  | .lessOrEqual => v.checkOne k Ordering.isLE .lessOrEqual
  | .greater => v.checkOne k Ordering.isGT .greater
  | .greaterOrEqual => v.checkOne k Ordering.isGE .greaterOrEqual

/-- Why a text is refused, or nothing when it is accepted. -/
def check (v : Validator) (s : String) : Option Rejection :=
  if Text.isAllBlank s then if v.required then some .required else none
  else if !v.fits s then some .notMatch
  else if v.kind = .list then if v.choices.contains s then none else some .notIn
  else match v.comparison, v.key? s with
    | some c, some k => v.checkKey k c
    | _, _ => none

open Json

/-- The names of the fields of a validator, in the order they are written. -/
def fieldNames : List String := ["type", "required", "value", "operator"]

/-- Read a validator. -/
def ofJson? (form : Form) (j : Json) : Option Validator := do
  let fields ← record? form fieldNames j
  return { kind := ← required? (choice? form ValidatorKind.words) (find? "type" fields)
           required := ← withDefault? bool? false (find? "required" fields)
           value := ← withDefault? text? "" (find? "value" fields)
           comparison := ← optional? (choice? form Comparison.words) (find? "operator" fields) }

/-- The fields of a validator, for an object of its own or one that it
    shares. -/
def toFields (v : Validator) : List (String × Json) :=
  [("type", .string v.kind.word), ("required", .bool v.required), ("value", .string v.value)] ++
    fieldIf "operator" (v.comparison.map fun c => .string c.word)

/-- The tree of a validator. -/
def toJson (v : Validator) : Json := .object v.toFields

end Validator

end Worksheet
