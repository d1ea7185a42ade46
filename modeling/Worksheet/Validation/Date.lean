import Worksheet.Text.Blank
import Worksheet.Text.Word

/-!
# Dates

Calendar dates and their notation.

A date is written as year, month and day with hyphens between. Blanks may
stand before each number. A year without a sign has at most four digits; with
a sign it may have any number of them, as far as the calendar reaches. Month
and day have one or two digits, and the day must exist in its month.

## Main definitions

* `Date`: A date, with `Date.order`.
* `daysIn`: The length of a month.
* `Date.read?`: The date that a text spells.
-/

namespace Worksheet

/-- A date of the Gregorian calendar, extended in both directions. -/
structure Date where
  year : Int
  month : Nat
  day : Nat
  deriving DecidableEq, Repr

namespace Date

/-- Has the year a 29th of February? -/
def isLeap (year : Int) : Bool :=
  year % 4 == 0 && (year % 100 != 0 || year % 400 == 0)

/-- The number of days of a month, zero for a number that is no month. -/
def daysIn (year : Int) (month : Nat) : Nat :=
  match month with
  | 1 | 3 | 5 | 7 | 8 | 10 | 12 => 31
  | 4 | 6 | 9 | 11 => 30
  | 2 => if isLeap year then 29 else 28
  | _ => 0

/-- The first year of the calendar. -/
def firstYear : Int := -262143

/-- The last year of the calendar. -/
def lastYear : Int := 262142

/-- The date with these parts, if there is one. -/
def ofParts? (year : Int) (month day : Nat) : Option Date :=
  if firstYear ≤ year ∧ year ≤ lastYear ∧ 1 ≤ day ∧ day ≤ daysIn year month then
    some ⟨year, month, day⟩
  else none

/-- Which of two dates comes first. -/
def order (a b : Date) : Ordering :=
  (compare a.year b.year).then ((compare a.month b.month).then (compare a.day b.day))

/-- At most `most` digits at the front, at least one, and what follows. -/
def readDigits? (most : Nat) (cs : List Char) : Option (Nat × List Char) :=
  match (cs.take most).takeWhile Text.isDigit with
  | [] => none
  | ds => some (Nat.ofDigitChars 10 ds 0, cs.drop ds.length)

/-- A year after blanks, and what follows. -/
def readYear? (cs : List Char) : Option (Int × List Char) :=
  match cs.dropWhile Text.isBlank with
  | '-' :: r => (readDigits? r.length r).map fun p => (-(p.1 : Int), p.2)
  | '+' :: r => (readDigits? r.length r).map fun p => ((p.1 : Int), p.2)
  | r => (readDigits? 4 r).map fun p => ((p.1 : Int), p.2)

/-- A month or a day after blanks, and what follows. -/
def readShort? (cs : List Char) : Option (Nat × List Char) :=
  readDigits? 2 (cs.dropWhile Text.isBlank)

/-- The date that the whole of a text spells. -/
def read? (cs : List Char) : Option Date :=
  match readYear? cs with
  | some (year, '-' :: r) => match readShort? r with
    | some (month, '-' :: r) => match readShort? r with
      | some (day, []) => ofParts? year month day
      | _ => none
    | _ => none
  | _ => none

end Date

end Worksheet
