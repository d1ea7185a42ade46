import Worksheet.Toml.Scalar
import Worksheet.Toml.Table

/-!
# Reading Table Documents

From the text of a document written as tables to its tree.

A document is lines. A line is blank, opens a table, opens one more item of
an array of tables, or gives a path a value in the table that was opened
last. Values are texts, numbers, dates, arrays and tables on one line. Arrays
may run over several lines and may end in a comma, tables on one line may
not.

## Main definitions

* `readValue?`: Any value.
* `readLine?`: One line.
* `parse?`: A whole document.
-/

namespace Worksheet

namespace Toml

/-- How deep values may be nested, and how many keys a path may have. -/
def maxNesting : Nat := 79

/-- The object that the pairs of a table on one line make. -/
def tableOf? (pairs : List (List String × Json)) : Option Json :=
  (pairs.foldlM (fun fields p => putValue? p.1 p.2 fields) []).map fun fields =>
    (Node.table false false fields).toJson

mutual

/-- A value and what follows it. The first argument bounds the calls, and
    `level` counts the values around this one. -/
def readValue? (level : Nat) : Nat → List Char → Option (Json × List Char)
  | 0, _ => none
  | fuel + 1, cs =>
    match cs with
    | '[' :: r =>
      if maxNesting ≤ level then none
      else (readItems? (level + 1) fuel r).map fun p => (.array p.1, p.2)
    | '\x7b' :: r =>
      if maxNesting ≤ level then none
      else match skipBlanks r with
        | '\x7d' :: r => some (.object [], r)
        | r => match readPairs? (level + 1) fuel r with
          | some (pairs, r) => (tableOf? pairs).map fun j => (j, r)
          | none => none
    | '"' :: _ => (readText? cs).map fun p => (.string p.1, p.2)
    | '\'' :: _ => (readText? cs).map fun p => (.string p.1, p.2)
    | _ => readScalar? cs

/-- The items of an array, up to its closing bracket. -/
def readItems? (level : Nat) : Nat → List Char → Option (List Json × List Char)
  | 0, _ => none
  | fuel + 1, cs =>
    match skipLines? cs.length cs with
    | some (']' :: r) => some ([], r)
    | some r => match readValue? level fuel r with
      | none => none
      | some (j, r) => match skipLines? r.length r with
        | some (',' :: r) => (readItems? level fuel r).map fun p => (j :: p.1, p.2)
        | some (']' :: r) => some ([j], r)
        | _ => none
    | none => none

/-- The pairs of a table on one line, at least one, up to its closing
    brace. -/
def readPairs? (level : Nat) : Nat → List Char → Option (List (List String × Json) × List Char)
  | 0, _ => none
  | fuel + 1, cs =>
    match readPath? maxNesting cs with
    | some (path, '=' :: r) => match readValue? level fuel (skipBlanks r) with
      | none => none
      | some (j, r) => match skipBlanks r with
        | ',' :: r => (readPairs? level fuel r).map fun p => ((path, j) :: p.1, p.2)
        | '\x7d' :: r => some ([(path, j)], r)
        | _ => none
    | _ => none

end

/-- A document as far as it has been read: its tables, and the path of the one
    that was opened last. -/
structure Document where
  fields : Fields := []
  header : List String := []

/-- The rest after a line is complete: nothing but a comment may stand before
    its end. -/
def endLine? (cs : List Char) : Option (List Char) :=
  match skipComment? (skipBlanks cs) with
  | some [] => some []
  | some r => lineEnd? r
  | none => none

/-- One line, and what follows it. -/
def readLine? (d : Document) (cs : List Char) : Option (Document × List Char) :=
  match skipBlanks cs with
  | '[' :: '[' :: r => match readPath? maxNesting r with
    | some (path, ']' :: ']' :: r) => match openItem? path d.fields, endLine? r with
      | some fields, some r => some (⟨fields, path⟩, r)
      | _, _ => none
    | _ => none
  | '[' :: r => match readPath? maxNesting r with
    | some (path, ']' :: r) => match openTable? path d.fields, endLine? r with
      | some fields, some r => some (⟨fields, path⟩, r)
      | _, _ => none
    | _ => none
  | r =>
    if r = [] ∨ r.head? = some '#' ∨ (lineEnd? r).isSome then
      (endLine? r).map fun r => (d, r)
    else match readPath? maxNesting r with
      | some (path, '=' :: r) => match readValue? 0 (2 * r.length + 2) (skipBlanks r) with
        | some (j, r) => match putUnder? d.header path j d.fields, endLine? r with
          | some fields, some r => some ({ d with fields }, r)
          | _, _ => none
        | none => none
      | _ => none

/-- All lines. The first argument bounds their number. -/
def readLines? : Nat → Document → List Char → Option Document
  | 0, _, _ => none
  | fuel + 1, d, cs =>
    if cs = [] then some d
    else match readLine? d cs with
      | some (d, r) => readLines? fuel d r
      | none => none

/-- The tree of a whole document. A mark of the byte order may stand in front
    of it. -/
def parse? (s : String) : Option Json :=
  let cs := match s.toList with
    | '\ufeff' :: r => r
    | cs => cs
  (readLines? (cs.length + 1) {} cs).map fun d => (Node.table false false d.fields).toJson

end Toml

end Worksheet
