import Worksheet.Json.Tree
import Worksheet.SparseMap
import Worksheet.Address.Range

/-!
# Records in Documents

Reading structured values out of trees, and building trees for them.

A record is read from an object by field name, or from an array by position.
Fields that a record does not know are passed over, and a known field that
occurs twice is refused. A field may be required, may have a default, or may
be optional, and only for an optional field does `null` mean that it is
absent.

A word stands for itself, or is the one field of an object whose value is
empty. Which value counts as empty, and whether an array may be longer than
its record, depends on the notation the tree came from, so both are given by
a `Form`.

## Main definitions

* `Form`: What is particular to a notation.
* `record?`: The fields of a record.
* `required?`, `withDefault?`, `optional?`: Reading one field.
* `word?`, `choice?`: Words out of a list.
* `indexMap?`: Maps keyed by indices.
* `fieldIf`: A field that is left out when it is absent.
-/

namespace Worksheet

namespace Json

/-- What is particular to the notation a tree was read from. -/
structure Form where
  /-- The values that may stand beside a word. -/
  isUnit : Json → Bool
  /-- May an array hold more than the record it is read as? -/
  longArrays : Bool

/-- Is it `null`? -/
def isNull : Json → Bool
  | .null => true
  | _ => false

/-- Is it an object without fields? -/
def isEmptyObject : Json → Bool
  | .object [] => true
  | _ => false

/-- Is it an array without items? -/
def isEmptyArray : Json → Bool
  | .array [] => true
  | _ => false

/-- The form of ordinary documents. -/
def Form.document : Form := ⟨isNull, false⟩

/-- The form of a record whose fields share an object with those of another. -/
def Form.shared : Form := ⟨fun j => isNull j || isEmptyObject j, false⟩

/-- The form of documents written as tables. -/
def Form.table : Form := ⟨fun j => isEmptyObject j || isEmptyArray j, true⟩

/-- The fields of a record with these field names, by name or by position. -/
def record? (form : Form) (names : List String) : Json → Option (List (String × Json))
  | .object fields =>
    let known := fields.filter fun f => names.contains f.1
    if (known.map Prod.fst).Nodup then some known else none
  | .array items =>
    if items.length ≤ names.length ∨ form.longArrays then some (names.zip items) else none
  | _ => none

section Fields

variable {α : Type}

/-- Read a field that has to be there. -/
def required? (read : Json → Option α) (field : Option Json) : Option α :=
  match field with
  | some j => read j
  | none => none

/-- Read a field that has a default. -/
def withDefault? (read : Json → Option α) (default : α) (field : Option Json) : Option α :=
  match field with
  | some j => read j
  | none => some default

/-- Read a field that may be absent or `null`. -/
def optional? (read : Json → Option α) (field : Option Json) : Option (Option α) :=
  match field with
  | none => some none
  | some .null => some none
  | some j => (read j).map some

/-- Read every item of an array. -/
def list? (read : Json → Option α) : Json → Option (List α)
  | .array items => items.mapM read
  | _ => none

/-- A word, alone or as the one field of an object with nothing in it. -/
def word? (form : Form) : Json → Option String
  | .string s => some s
  | .object [(s, j)] => if form.isUnit j then some s else none
  | _ => none

/-- The meaning of a word out of a list. -/
def choice? (form : Form) (words : List (String × α)) (j : Json) : Option α :=
  match word? form j with
  | some s => (words.find? fun w => w.1 == s).map Prod.snd
  | none => none

end Fields

/-- Read a text. -/
def text? : Json → Option String
  | .string s => some s
  | _ => none

/-- Read a truth value. -/
def bool? : Json → Option Bool
  | .bool b => some b
  | _ => none

/-- Read an index or a count. -/
def index? : Json → Option Nat
  | .int n => if 0 ≤ n then some n.toNat else none
  | _ => none

/-- Read a number that fits sixteen bits. -/
def short? : Json → Option Nat
  | .int n => if 0 ≤ n ∧ n < UInt16.size then some n.toNat else none
  | _ => none

/-- Read a double; an integer is rounded to one. -/
def float? : Json → Option Float
  | .int n =>
    let x := (UInt64.ofNat n.natAbs).toFloat
    some (if n < 0 then -x else x)
  | .float x => some x
  | _ => none

/-- Read two indices from an array of exactly two. -/
def indexPair? : Json → Option (Nat × Nat)
  | .array [a, b] => match index? a, index? b with
    | some a, some b => some (a, b)
    | _, _ => none
  | _ => none

/-- Read a cell from its notation. -/
def cell? : Json → Option CellRef
  | .string s => CellRef.ofText? s
  | _ => none

/-- Read a range from its notation. -/
def range? : Json → Option Range
  | .string s => Range.ofText? s
  | _ => none

/-- The index that the name of a field spells, without zeros in front. -/
def indexName? (s : String) : Option Nat :=
  let ds := s.toList
  let n := Nat.ofDigitChars 10 ds 0
  if ds ≠ [] ∧ ds.all Text.isDigit ∧ (ds.head? = some '0' → ds = ['0']) ∧ n < Address.gridLimit then
    some n
  else none

/-- Read a map from an object whose names are indices. Of two entries for one
    index the later wins. -/
def indexMap? {α : Type} (read : Json → Option α) : Json → Option (SparseMap α)
  | .object fields =>
    (fields.mapM fun (f : String × Json) => match indexName? f.1, read f.2 with
      | some k, some v => some (k, v)
      | _, _ => none).map SparseMap.ofList
  | _ => none

/-- An index or a count. -/
def ofIndex (n : Nat) : Json := .int n

/-- A cell in its notation. -/
def ofCell (c : CellRef) : Json := .string c.toText

/-- A range in its notation. -/
def ofRange (r : Range) : Json := .string r.toText

/-- An object whose names are the indices of a map, in increasing order. -/
def ofIndexMap {α : Type} (write : α → Json) (m : SparseMap α) : Json :=
  .object (m.entries.map fun e => (toString e.1, write e.2))

/-- A field that is left out when it is absent. -/
def fieldIf (name : String) (j : Option Json) : List (String × Json) :=
  match j with
  | some j => [(name, j)]
  | none => []

/-- A field that is written only when it is true. -/
def fieldWhen (name : String) (b : Bool) : List (String × Json) :=
  if b then [(name, .bool true)] else []

end Json

end Worksheet
