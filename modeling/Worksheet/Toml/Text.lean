import Worksheet.Json.Reader
import Worksheet.Text.Split

/-!
# Keys and Texts of Table Documents

The smallest parts of a document that is written as tables.

Such a document spells texts in four ways: between double quotes with
escapes, between single quotes without any, and each of the two over several
lines between three quotes. A key is a bare word or a text on one line, and
several keys joined by points are a path.

## Main definitions

* `skipBlanks`, `skipComment?`, `skipLines?`: What separates the parts.
* `readText?`: A text of any of the four kinds.
* `readPath?`: A key, or keys joined by points.
-/

namespace Worksheet

namespace Toml

/-- A reader takes something from the front of the characters, and leaves the
    rest. -/
abbrev Reader (α : Type) := List Char → Option (α × List Char)

/-- A space or a tab. -/
def isBlank (c : Char) : Bool := c == ' ' || c == '\t'

/-- Drop spaces and tabs at the front. -/
def skipBlanks (cs : List Char) : List Char := cs.dropWhile isBlank

/-- May the character stand in a comment or a text as it is? Control
    characters other than the tab may not. -/
def isPrintable (c : Char) : Bool :=
  c == '\t' || (32 ≤ c.toNat && c.toNat != 127)

/-- What follows a line end. -/
def lineEnd? : List Char → Option (List Char)
  | '\n' :: r => some r
  | '\r' :: '\n' :: r => some r
  | _ => none

/-- Drop a comment, if there is one, up to the end of its line. -/
def skipComment? (cs : List Char) : Option (List Char) :=
  match cs with
  | '#' :: r =>
    let rest := r.dropWhile isPrintable
    if rest = [] ∨ (lineEnd? rest).isSome then some rest else none
  | _ => some cs

/-- Drop blanks, comments and line ends. The first argument bounds the number
    of lines. -/
def skipLines? : Nat → List Char → Option (List Char)
  | 0, cs => some cs
  | fuel + 1, cs =>
    match skipComment? (skipBlanks cs) with
    | none => none
    | some r => match lineEnd? r with
      | some r => skipLines? fuel r
      | none => some r

/-- The character with a code point, if there is one. -/
def charOf? (n : Nat) : Option Char :=
  if n < 0xD800 ∨ (0xDFFF < n ∧ n < 0x110000) then some (Char.ofNat n) else none

/-- The code point that hexadecimal digits spell. -/
def hexPoint? (ds : List Char) : Option Nat :=
  (ds.mapM Json.hexValue?).map fun vs => vs.foldl (fun n v => n * 16 + v) 0

/-- The character that an escape stands for, after the backslash. -/
def readEscape? : Reader Char
  | 'u' :: r =>
    if (r.take 4).length = 4 then
      ((hexPoint? (r.take 4)).bind charOf?).map fun c => (c, r.drop 4)
    else none
  | 'U' :: r =>
    if (r.take 8).length = 8 then
      ((hexPoint? (r.take 8)).bind charOf?).map fun c => (c, r.drop 8)
    else none
  | c :: r =>
    if c = '/' then none else (Json.escaped? c).map fun e => (e, r)
  | [] => none

/-- A text on one line after its opening quote, with escapes. The first
    argument bounds the number of characters. -/
def readBasic? : Nat → Reader (List Char)
  | 0, _ => none
  | fuel + 1, cs => match cs with
    | '"' :: r => some ([], r)
    | '\\' :: r => match readEscape? r with
      | some (c, r) => (readBasic? fuel r).map fun p => (c :: p.1, p.2)
      | none => none
    | c :: r =>
      if isPrintable c then (readBasic? fuel r).map fun p => (c :: p.1, p.2) else none
    | [] => none

/-- A text on one line after its opening quote, without escapes. -/
def readLiteral? : Reader (List Char)
  | [] => none
  | '\'' :: r => some ([], r)
  | c :: r => if isPrintable c then (readLiteral? r).map fun p => (c :: p.1, p.2) else none

/-- The closing quotes of a text over several lines. Up to two quotes before
    the last three belong to the text. -/
def closing? (quote : Char) (cs : List Char) : Option (List Char × List Char) :=
  let n := ((cs.take 5).takeWhile (· == quote)).length
  if n < 3 then none else some (List.replicate (n - 3) quote, cs.drop n)

/-- Drop blanks and line ends at the front. -/
def skipBreaks : List Char → List Char
  | ' ' :: r => skipBreaks r
  | '\t' :: r => skipBreaks r
  | '\n' :: r => skipBreaks r
  | '\r' :: '\n' :: r => skipBreaks r
  | cs => cs

/-- Drop blanks and line ends after a backslash that ends a line. At least
    one line end has to be among them. -/
def skipFolded? (cs : List Char) : Option (List Char) :=
  (lineEnd? (skipBlanks cs)).map skipBreaks

/-- A text over several lines after its opening quotes. Line ends of two
    characters are read as newlines. -/
def readLong? (quote : Char) (escapes : Bool) : Nat → Reader (List Char)
  | 0, _ => none
  | fuel + 1, cs => match closing? quote cs with
    | some p => some p
    | none => match lineEnd? cs with
      | some r => (readLong? quote escapes fuel r).map fun p => ('\n' :: p.1, p.2)
      | none => match cs with
        | [] => none
        | c :: r =>
          -- A backslash at the end of a line joins the next line to it.
          if escapes ∧ c = '\\' then match skipFolded? r with
            | some r => readLong? quote escapes fuel r
            | none => match readEscape? r with
              | some (c, r) => (readLong? quote escapes fuel r).map fun p => (c :: p.1, p.2)
              | none => none
          else if isPrintable c then
            (readLong? quote escapes fuel r).map fun p => (c :: p.1, p.2)
          else none

/-- Drop a line end at the front, if there is one. -/
def skipLineEnd (cs : List Char) : List Char := (lineEnd? cs).getD cs

/-- A text of any kind. -/
def readText? (cs : List Char) : Option (String × List Char) :=
  let fuel := cs.length + 1
  let found : Option (List Char × List Char) := match cs with
    | '"' :: '"' :: '"' :: r => readLong? '"' true fuel (skipLineEnd r)
    | '\'' :: '\'' :: '\'' :: r => readLong? '\'' false fuel (skipLineEnd r)
    | '"' :: r => readBasic? fuel r
    | '\'' :: r => readLiteral? r
    | _ => none
  found.map fun p => (String.ofList p.1, p.2)

/-- May the character stand in a bare key? -/
def isKeyChar (c : Char) : Bool :=
  Text.isLetter c || Text.isDigit c || c == '_' || c == '-'

/-- One key. -/
def readKey? (cs : List Char) : Option (String × List Char) :=
  match cs with
  | '"' :: r => (readBasic? cs.length r).map fun p => (String.ofList p.1, p.2)
  | '\'' :: r => (readLiteral? r).map fun p => (String.ofList p.1, p.2)
  | _ => match cs.takeWhile isKeyChar with
    | [] => none
    | key => some (String.ofList key, cs.dropWhile isKeyChar)

/-- Keys joined by points, with blanks around each. The first argument bounds
    the number of keys. -/
def readPath? : Nat → Reader (List String)
  | 0, _ => none
  | fuel + 1, cs => match readKey? (skipBlanks cs) with
    | none => none
    | some (key, r) => match skipBlanks r with
      | '.' :: r => (readPath? fuel r).map fun p => (key :: p.1, p.2)
      | r => some ([key], r)

end Toml

end Worksheet
