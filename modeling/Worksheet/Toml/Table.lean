import Worksheet.Json.Tree

/-!
# Tables under Construction

The tables of a document while its lines are read.

A line puts a value at a path, and a path may lead through tables that nobody
has written yet. Those are made on the way, and remembered as made: a header
may still take such a table once, but a table that has a header, or that a
dotted key has started, is closed to the other kind of line. A name is never
given two values.

## Main definitions

* `Node`: A value, a table or an array of tables.
* `editAt?`: Change the fields at the end of a path.
* `putValue?`, `openTable?`, `openItem?`: What a line does.
* `toJson`: The finished tree.
-/

namespace Worksheet

namespace Toml

/-- What a name stands for while a document is read. -/
inductive Node where
  | value (j : Json)
  /-- A table: was it made on the way to something else, and did a dotted key
      make it? -/
  | table (made dotted : Bool) (fields : List (String × Node))
  /-- An array of tables, the last one first. -/
  | tables (items : List (List (String × Node)))

/-- The fields of a table. -/
abbrev Fields := List (String × Node)

/-- What a name stands for. -/
def lookup? (name : String) : Fields → Option Node
  | [] => none
  | (n, x) :: fs => if n = name then some x else lookup? name fs

/-- Let a name stand for something. -/
def assign (name : String) (x : Node) : Fields → Fields
  | [] => [(name, x)]
  | (n, y) :: fs => if n = name then (n, x) :: fs else (n, y) :: assign name x fs

/-- Change the fields at the end of a path. `edit` is told whether a dotted
    key made the table. Tables missing on the way are made; of an array of
    tables the last is meant. A dotted path does not enter a table that has
    a header. -/
def editAt? (viaDots : Bool) (edit : Bool → Fields → Option Fields) :
    List String → Bool → Fields → Option Fields
  | [], dotted, fields => edit dotted fields
  | name :: path, _, fields =>
    match lookup? name fields with
    | none => (editAt? viaDots edit path viaDots []).map fun sub =>
      assign name (.table true viaDots sub) fields
    | some (.table made dotted sub) =>
      -- Only a table that nobody has written is open to dotted keys.
      if viaDots ∧ ¬ made then none
      else (editAt? viaDots edit path dotted sub).map fun sub =>
        assign name (.table made dotted sub) fields
    | some (.tables (last :: earlier)) => (editAt? viaDots edit path false last).map fun last =>
      assign name (.tables (last :: earlier)) fields
    | some _ => none

/-- Give the last name of a path a value, in the table that the others lead
    to. -/
def putValue? (path : List String) (j : Json) (fields : Fields) : Option Fields :=
  match path.getLast? with
  | none => none
  | some name =>
    editAt? true (fun dotted fields =>
      if dotted = path.dropLast.isEmpty ∨ (lookup? name fields).isSome then none
      else some (assign name (.value j) fields)) path.dropLast false fields

/-- Put a value at a path below the table that a header has opened. -/
def putUnder? (header path : List String) (j : Json) (fields : Fields) : Option Fields :=
  editAt? false (fun _ fields => putValue? path j fields) header false fields

/-- Open the table of a header. -/
def openTable? (path : List String) (fields : Fields) : Option Fields :=
  match path.getLast? with
  | none => none
  | some name =>
    editAt? false (fun _ fields => match lookup? name fields with
      | none => some (assign name (.table false false []) fields)
      | some (.table true false sub) => some (assign name (.table false false sub) fields)
      | some _ => none) path.dropLast false fields

/-- Open one more item of the array of a header. -/
def openItem? (path : List String) (fields : Fields) : Option Fields :=
  match path.getLast? with
  | none => none
  | some name =>
    editAt? false (fun _ fields => match lookup? name fields with
      | none => some (assign name (.tables [[]]) fields)
      | some (.tables items) => some (assign name (.tables ([] :: items)) fields)
      | some _ => none) path.dropLast false fields

mutual

/-- The finished tree of a node. -/
def Node.toJson : Node → Json
  | .value j => j
  | .table _ _ fields => .object (fieldsToJson fields)
  | .tables items => .array (itemsToJson items).reverse

/-- The finished trees of fields. -/
def fieldsToJson : List (String × Node) → List (String × Json)
  | [] => []
  | (name, x) :: fs => (name, x.toJson) :: fieldsToJson fs

/-- The finished trees of the items of an array of tables. -/
def itemsToJson : List (List (String × Node)) → List Json
  | [] => []
  | fields :: items => .object (fieldsToJson fields) :: itemsToJson items

end

end Toml

end Worksheet
