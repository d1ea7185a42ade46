import Worksheet.Json.Scalar

/-!
# Reading Documents

From the text of a document to its tree.

Reading descends through the text with a bound on the number of calls. Each
call either uses up a character or is followed by one that does, so twice the
length of the text is enough, and `parse?` supplies it.

A text literal is first cut into characters and code units, because an escape
may spell half of a surrogate pair. Pairs are then joined; a half that is
left over makes the literal unreadable, but does not make the document
malformed. The name of a field may be an index, and an index is written in
plain digits only.

## Main definitions

* `TextUnit`, `readUnits?`, `joinUnits?`: Text literals.
* `readName?`: Names of fields.
* `readNumber?`: Number literals.
* `readValue?`: Any value.
* `parse?`: A whole document.
-/

namespace Worksheet

namespace Json

/-- The four characters that may stand between the parts of a document. -/
def isSpace (c : Char) : Bool :=
  c == ' ' || c == '\t' || c == '\n' || c == '\r'

/-- Drop the spaces at the front. -/
def skipSpace (cs : List Char) : List Char :=
  cs.dropWhile isSpace

/-- A part of a text literal: a character, or a code unit that an escape
    spells. -/
inductive TextUnit where
  | char (c : Char)
  | code (n : Nat)
  deriving DecidableEq, Repr

/-- The value of a hexadecimal digit of either case. -/
def hexValue? (c : Char) : Option Nat :=
  if Text.isDigit c then some (c.toNat - '0'.toNat)
  else if 'a' ≤ c ∧ c ≤ 'f' then some (c.toNat - 'a'.toNat + 10)
  else if 'A' ≤ c ∧ c ≤ 'F' then some (c.toNat - 'A'.toNat + 10)
  else none

/-- The code unit that four hexadecimal digits spell. -/
def hexCode? (a b c d : Char) : Option Nat :=
  match hexValue? a, hexValue? b, hexValue? c, hexValue? d with
  | some a, some b, some c, some d => some (a * 4096 + b * 256 + c * 16 + d)
  | _, _, _, _ => none

/-- The character that a one-letter escape stands for. -/
def escaped? (c : Char) : Option Char :=
  if c = '"' ∨ c = '\\' ∨ c = '/' then some c
  else if c = 'b' then some '\x08'
  else if c = 'f' then some '\x0c'
  else if c = 'n' then some '\n'
  else if c = 'r' then some '\r'
  else if c = 't' then some '\t'
  else none

/-- The parts of a text literal up to its closing quote, and what follows. -/
def readUnits? : List Char → Option (List TextUnit × List Char)
  | [] => none
  | '"' :: rest => some ([], rest)
  | '\\' :: 'u' :: a :: b :: c :: d :: rest =>
    match hexCode? a b c d with
    | some n => (readUnits? rest).map fun p => (.code n :: p.1, p.2)
    | none => none
  | '\\' :: c :: rest =>
    match escaped? c with
    | some e => (readUnits? rest).map fun p => (.char e :: p.1, p.2)
    | none => none
  | c :: rest =>
    if c = '\\' ∨ c.toNat < 32 then none
    else (readUnits? rest).map fun p => (.char c :: p.1, p.2)

/-- The characters that parts of a text literal stand for, unless half a
    surrogate pair is among them. -/
def joinUnits? : List TextUnit → Option (List Char)
  | [] => some []
  | .char c :: us => (joinUnits? us).map (c :: ·)
  | .code n :: us =>
    if n < 0xD800 ∨ 0xDFFF < n then (joinUnits? us).map (Char.ofNat n :: ·)
    else match us with
      | .code m :: us =>
        if n < 0xDC00 ∧ 0xDC00 ≤ m ∧ m ≤ 0xDFFF then
          (joinUnits? us).map (Char.ofNat (0x10000 + (n - 0xD800) * 0x400 + (m - 0xDC00)) :: ·)
        else none
      | _ => none

/-- A text literal after its opening quote: its text, if it has one, and what
    follows. -/
def readText? (cs : List Char) : Option (Option String × List Char) :=
  (readUnits? cs).map fun p => ((joinUnits? p.1).map String.ofList, p.2)

/-- Is the part spelled as a code unit? -/
def TextUnit.isCode : TextUnit → Bool
  | .char _ => false
  | .code _ => true

/-- The name of a field after its opening quote, if it has one, and what
    follows. Digits of which some are spelled as code units are not an index,
    and are kept behind a backslash so that nothing takes them for one. -/
def readName? (cs : List Char) : Option (Option String × List Char) :=
  (readUnits? cs).map fun p =>
    let spelled (name : List Char) : List Char :=
      if p.1.any TextUnit.isCode && name.all Text.isDigit then '\\' :: name else name
    ((joinUnits? p.1).map fun name => String.ofList (spelled name), p.2)

/-- The digits at the front, at least one, and what follows. -/
def readDigits? (cs : List Char) : Option (List Char × List Char) :=
  match cs.takeWhile Text.isDigit with
  | [] => none
  | ds => some (ds, cs.dropWhile Text.isDigit)

/-- A fraction, if a point follows. A point without digits is malformed. -/
def readFraction? : List Char → Option (Option (List Char) × List Char)
  | '.' :: cs => (readDigits? cs).map fun p => (some p.1, p.2)
  | cs => some (none, cs)

/-- An exponent, if one follows, with its sign first. -/
def readPower? : List Char → Option (Bool × Option (List Char) × List Char)
  | c :: cs =>
    if c = 'e' ∨ c = 'E' then
      match cs with
      | '-' :: r => (readDigits? r).map fun p => (true, some p.1, p.2)
      | '+' :: r => (readDigits? r).map fun p => (false, some p.1, p.2)
      | r => (readDigits? r).map fun p => (false, some p.1, p.2)
    else some (false, none, c :: cs)
  | [] => some (false, none, [])

/-- A number literal without its sign. A zero in front of other digits is
    malformed. -/
def readUnsigned? (negative : Bool) (cs : List Char) : Option (Json × List Char) :=
  match readDigits? cs with
  | none => none
  | some (whole, r) =>
    if 1 < whole.length ∧ whole.head? = some '0' then none
    else match readFraction? r with
      | none => none
      | some (fraction, r) => match readPower? r with
        | none => none
        | some (exponentNegative, exponent, r) =>
          some (ofNumber negative whole fraction exponentNegative exponent, r)

/-- A number literal and what follows. -/
def readNumber? : List Char → Option (Json × List Char)
  | '-' :: cs => readUnsigned? true cs
  | cs => readUnsigned? false cs

/-- The object with these fields. A name without a text makes all of it
    unreadable. -/
def objectOf (fields : List (Option String × Json)) : Json :=
  match fields.mapM fun f => f.1.map fun name => (name, f.2) with
  | some named => .object named
  | none => .unreadable

mutual

/-- A value and what follows it. The first argument bounds the calls. -/
def readValue? : Nat → List Char → Option (Json × List Char)
  | 0, _ => none
  | fuel + 1, cs =>
    match skipSpace cs with
    | 'n' :: 'u' :: 'l' :: 'l' :: r => some (.null, r)
    | 't' :: 'r' :: 'u' :: 'e' :: r => some (.bool true, r)
    | 'f' :: 'a' :: 'l' :: 's' :: 'e' :: r => some (.bool false, r)
    | '"' :: r => (readText? r).map fun p =>
      (match p.1 with
        | some s => .string s
        | none => .unreadable, p.2)
    | '[' :: r => match skipSpace r with
      | ']' :: r => some (.array [], r)
      | r => (readItems? fuel r).map fun p => (.array p.1, p.2)
    | '\x7b' :: r => match skipSpace r with
      | '\x7d' :: r => some (.object [], r)
      | r => (readFields? fuel r).map fun p => (objectOf p.1, p.2)
    | r => readNumber? r

/-- The items of an array, at least one, up to its closing bracket. -/
def readItems? : Nat → List Char → Option (List Json × List Char)
  | 0, _ => none
  | fuel + 1, cs =>
    match readValue? fuel cs with
    | none => none
    | some (j, r) => match skipSpace r with
      | ',' :: r => (readItems? fuel r).map fun p => (j :: p.1, p.2)
      | ']' :: r => some ([j], r)
      | _ => none

/-- The fields of an object, at least one, up to its closing brace. -/
def readFields? : Nat → List Char → Option (List (Option String × Json) × List Char)
  | 0, _ => none
  | fuel + 1, cs =>
    match skipSpace cs with
    | '"' :: r => match readName? r with
      | none => none
      | some (name, r) => match skipSpace r with
        | ':' :: r => match readValue? fuel r with
          | none => none
          | some (j, r) => match skipSpace r with
            | ',' :: r => (readFields? fuel r).map fun p => ((name, j) :: p.1, p.2)
            | '\x7d' :: r => some ([(name, j)], r)
            | _ => none
        | _ => none
    | _ => none

end

/-- The tree of a whole document. Only spaces may follow the value. -/
def parseChars? (cs : List Char) : Option Json :=
  match readValue? (2 * cs.length + 2) cs with
  | some (j, r) => if skipSpace r = [] then some j else none
  | none => none

/-- The tree of a whole document. -/
def parse? (s : String) : Option Json :=
  parseChars? s.toList

end Json

end Worksheet
