import Worksheet.Json.Tree
import Worksheet.Number.Shortest

/-!
# Writing Documents

From a tree to the text of a document.

The text has no spaces, so a tree has one text. Only the quote, the backslash
and the control characters are escaped. A double is written with the fewest
digits that name it, a tie going to the even digit, and always with a point
or an exponent, so that it is read back as a double: in full while the point
falls less than five places before the first digit and at most sixteen after
it, with a signed exponent otherwise. There is no spelling for the infinities
and for what is not a number; they are written as `null`.

## Main definitions

* `escape`, `quoted`: Text literals.
* `floatChars`: Doubles.
* `chars`, `render`: Any value.
-/

namespace Worksheet

namespace Json

/-- A hexadecimal digit, in lower case. -/
def hexDigit (n : Nat) : Char :=
  if n < 10 then Char.ofNat ('0'.toNat + n) else Char.ofNat ('a'.toNat + (n - 10))

/-- A character as it is written inside a text literal. -/
def escape (c : Char) : List Char :=
  if c = '"' then ['\\', '"']
  else if c = '\\' then ['\\', '\\']
  else if c = '\x08' then ['\\', 'b']
  else if c = '\t' then ['\\', 't']
  else if c = '\n' then ['\\', 'n']
  else if c = '\x0c' then ['\\', 'f']
  else if c = '\r' then ['\\', 'r']
  else if c.toNat < 32 then
    ['\\', 'u', '0', '0', hexDigit (c.toNat / 16), hexDigit (c.toNat % 16)]
  else [c]

/-- A text literal. -/
def quoted (s : String) : List Char :=
  '"' :: s.toList.flatMap escape ++ ['"']

/-- Digits with one of them before the point, and an exponent, which always
    has a sign. -/
def scientific (ds : List Char) (power : Int) : List Char :=
  let e := (ds.length : Int) + power - 1
  let exponent := 'e' :: (if e < 0 then '-' else '+') :: Nat.toDigits 10 e.natAbs
  match ds with
  | [d] => d :: exponent
  | d :: rest => d :: '.' :: rest ++ exponent
  | [] => exponent

/-- The text of a double. -/
def floatChars (x : Float) : List Char :=
  match Number.parts x with
  | .finite s m e =>
    let (digits, power) := Number.shortest .even m e
    let ds := Nat.toDigits 10 digits
    let point := (ds.length : Int) + power
    let body :=
      if -5 < point ∧ point ≤ 16 then Number.positional ds power ['.', '0']
      else scientific ds power
    if s then '-' :: body else body
  | _ => ['n', 'u', 'l', 'l']

mutual

/-- The text of a tree. -/
def chars : Json → List Char
  | .null => ['n', 'u', 'l', 'l']
  | .unreadable => ['n', 'u', 'l', 'l']
  | .bool true => ['t', 'r', 'u', 'e']
  | .bool false => ['f', 'a', 'l', 's', 'e']
  | .int n => (toString n).toList
  | .float x => floatChars x
  | .string s => quoted s
  | .array items => '[' :: itemChars items
  | .object fields => '\x7b' :: fieldChars fields

/-- The items of an array with the closing bracket. -/
def itemChars : List Json → List Char
  | [] => [']']
  | [j] => chars j ++ [']']
  | j :: js => chars j ++ ',' :: itemChars js

/-- The fields of an object with the closing brace. -/
def fieldChars : List (String × Json) → List Char
  | [] => ['\x7d']
  | [(name, j)] => quoted name ++ ':' :: (chars j ++ ['\x7d'])
  | (name, j) :: fs => quoted name ++ ':' :: (chars j ++ ',' :: fieldChars fs)

end

/-- The text of a tree. -/
def render (j : Json) : String :=
  String.ofList (chars j)

end Json

end Worksheet
