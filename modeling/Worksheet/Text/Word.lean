import Worksheet.Text.WordTable

/-!
# Letters, Digits and Words

The character classes that patterns over cell text are written in.

A reference inside a formula, a phone number and an e-mail address are all
recognised by classes of characters. The letters of a reference are ASCII;
a digit and a word character may come from any script, and where a word ends
decides whether `A1` stands on its own. ASCII is answered without looking at
the tables, since nearly every character is ASCII.

## Main definitions

* `isLetter`, `isDigit`: The ASCII letters and digits.
* `isDecimal`: The decimal digits of every script.
* `isWord`: The word characters of every script.
* `upper`: ASCII upper case.
-/

namespace Worksheet

namespace Text

/-- An ASCII letter of either case. -/
def isLetter (c : Char) : Bool :=
  ('a' ≤ c && c ≤ 'z') || ('A' ≤ c && c ≤ 'Z')

/-- An ASCII digit. -/
def isDigit (c : Char) : Bool :=
  '0' ≤ c && c ≤ '9'

/-- Membership of a code point in a list of ranges. -/
def inRanges (ranges : List (Nat × Nat)) (n : Nat) : Bool :=
  ranges.any fun r => r.1 ≤ n && n ≤ r.2

/-- A decimal digit of any script. -/
def isDecimal (c : Char) : Bool :=
  if c.toNat < 128 then isDigit c else inRanges digitRanges c.toNat

/-- A word character of any script. -/
def isWord (c : Char) : Bool :=
  if c.toNat < 128 then isLetter c || isDigit c || c == '_' else inRanges wordRanges c.toNat

/-- ASCII lower-case letters become capitals; every other character stays. -/
def upper (c : Char) : Char :=
  if 'a' ≤ c && c ≤ 'z' then Char.ofNat (c.toNat - 32) else c

end Text

end Worksheet
