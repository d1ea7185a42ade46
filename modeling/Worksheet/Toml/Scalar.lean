import Worksheet.Number.Literal
import Worksheet.Toml.Text
import Worksheet.Validation.Date

/-!
# Numbers and Dates of Table Documents

Values that begin with a digit or a sign.

Integers may be written in base ten, sixteen, eight or two and must fit 64
bits. A number with a fraction or an exponent is the nearest double. In both,
an underscore may stand between two digits. Dates and times are checked and
then kept as their text, inside an object, since nothing here computes with
them.

## Main definitions

* `readInteger?`, `readFloat?`: Numbers.
* `readDateTime?`: Dates and times.
* `readScalar?`: Any of them.
-/

namespace Worksheet

namespace Toml

/-- Digits with single underscores between them, at least one, and what
    follows. The underscores are dropped. -/
def readDigits? (isDigit : Char → Bool) : Reader (List Char)
  | [] => none
  | c :: r =>
    if isDigit c then
      match r with
      | [] => some ([c], [])
      | '_' :: r => (readDigits? isDigit r).map fun p => (c :: p.1, p.2)
      | d :: r =>
        if isDigit d then (readDigits? isDigit (d :: r)).map fun p => (c :: p.1, p.2)
        else some ([c], d :: r)
    else none

/-- The sign of a number, as a factor, and what follows. -/
def readSign (cs : List Char) : Bool × List Char := Number.takeSign cs

/-- Digits in base ten without a zero in front of others, and what follows. -/
def readDecimal? (cs : List Char) : Option (List Char × List Char) :=
  match cs with
  | '0' :: r => some (['0'], r)
  | _ => readDigits? Text.isDigit cs

/-- The integer that fits 64 bits, if it does. -/
def integer? (n : Int) : Option Json :=
  if -(UInt64.size : Int) ≤ 2 * n ∧ 2 * n < UInt64.size then some (.int n) else none

/-- The number that digits spell in a base. -/
def valueIn (base : Nat) (ds : List Char) : Nat :=
  ds.foldl (fun n c => n * base + (Json.hexValue? c).getD 0) 0

/-- An integer with a mark for its base. -/
def readBased? (base : Nat) (cs : List Char) : Option (Json × List Char) :=
  match readDigits? (fun c => (Json.hexValue? c).any (· < base)) cs with
  | some (ds, r) => (integer? (valueIn base ds)).map fun j => (j, r)
  | none => none

/-- An integer. -/
def readInteger? (cs : List Char) : Option (Json × List Char) :=
  match cs with
  | '0' :: 'x' :: r => readBased? 16 r
  | '0' :: 'o' :: r => readBased? 8 r
  | '0' :: 'b' :: r => readBased? 2 r
  | _ =>
    let (negative, r) := readSign cs
    match readDecimal? r with
    | some (ds, r) =>
      let n : Int := Nat.ofDigitChars 10 ds 0
      (integer? (if negative then -n else n)).map fun j => (j, r)
    | none => none

/-- The exponent of a double, if there is one: its sign and digits. -/
def readPower? (cs : List Char) : Option ((Bool × List Char) × List Char) :=
  match cs with
  | c :: r =>
    if c = 'e' ∨ c = 'E' then
      let (negative, r) := readSign r
      (readDigits? Text.isDigit r).map fun p => ((negative, p.1), p.2)
    else none
  | [] => none

/-- A double. Only a positive value out of range is refused; a negative one
    is an infinity. -/
def readFloat? (cs : List Char) : Option (Json × List Char) :=
  let (negative, r) := readSign cs
  match r with
  | 'i' :: 'n' :: 'f' :: r => some (.float (if negative then -1.0 / 0.0 else 1.0 / 0.0), r)
  | 'n' :: 'a' :: 'n' :: r => some (.float (0.0 / 0.0), r)
  | _ => match readDecimal? r with
    | none => none
    | some (whole, r) =>
      let finish (fraction : List Char) (power : Bool × List Char) (r : List Char) :
          Option (Json × List Char) :=
        let n : Int := Nat.ofDigitChars 10 power.2 0
        let x := Number.nearest (Nat.ofDigitChars 10 (whole ++ fraction) 0)
          ((if power.1 then -n else n) - fraction.length)
        if x.isInf ∧ ¬ negative then none
        else some (.float (if negative then -x else x), r)
      match r with
      | '.' :: r => match readDigits? Text.isDigit r with
        | none => none
        | some (fraction, r) => match readPower? r with
          | some (power, r) => finish fraction power r
          | none =>
            if r.head? = some 'e' ∨ r.head? = some 'E' then none
            else finish fraction (false, []) r
      | r => match readPower? r with
        | some (power, r) => finish [] power r
        | none => none

/-- Exactly `count` digits with a value from `lo` to `hi`, and what follows. -/
def readField? (count lo hi : Nat) (cs : List Char) : Option (Nat × List Char) :=
  let ds := cs.take count
  let n := Nat.ofDigitChars 10 ds 0
  if ds.length = count ∧ ds.all Text.isDigit ∧ lo ≤ n ∧ n ≤ hi then some (n, cs.drop count)
  else none

/-- A date with two hyphens, and what follows. -/
def readDate? (cs : List Char) : Option (List Char) :=
  match readField? 4 0 9999 cs with
  | some (year, '-' :: r) => match readField? 2 1 12 r with
    | some (month, '-' :: r) => match readField? 2 1 31 r with
      | some (day, r) => if day ≤ Date.daysIn year month then some r else none
      | none => none
    | _ => none
  | _ => none

/-- A time with two colons and perhaps a fraction, and what follows. -/
def readTime? (cs : List Char) : Option (List Char) :=
  match readField? 2 0 23 cs with
  | some (_, ':' :: r) => match readField? 2 0 59 r with
    | some (_, ':' :: r) => match readField? 2 0 60 r with
      | some (_, '.' :: c :: r) =>
        if Text.isDigit c then some (r.dropWhile Text.isDigit) else none
      | some (_, r) => some r
      | none => none
    | _ => none
  | _ => none

/-- What follows an offset from universal time, if there is one. -/
def skipOffset (cs : List Char) : List Char :=
  match cs with
  | c :: r =>
    if c = 'Z' ∨ c = 'z' then r
    else if c = '+' ∨ c = '-' then
      match readField? 2 0 23 r with
      | some (_, ':' :: r) => match readField? 2 0 59 r with
        | some (_, r) => r
        | none => cs
      | _ => cs
    else cs
  | [] => []

/-- A date, a time or both, and what follows. -/
def skipDateTime? (cs : List Char) : Option (List Char) :=
  match readDate? cs with
  | some r => match r with
    | c :: t =>
      if c = 'T' ∨ c = 't' ∨ c = ' ' then
        match readTime? t with
        | some t => some (skipOffset t)
        | none => some r
      else some r
    | [] => some []
  | none => readTime? cs

/-- A date or a time, kept as its text in an object. -/
def readDateTime? (cs : List Char) : Option (Json × List Char) :=
  (skipDateTime? cs).map fun r =>
    (.object [("datetime", .string (String.ofList (cs.take (cs.length - r.length))))], r)

/-- A value that begins with a digit, a sign or a letter. -/
def readScalar? (cs : List Char) : Option (Json × List Char) :=
  match cs with
  | 't' :: 'r' :: 'u' :: 'e' :: r => some (.bool true, r)
  | 'f' :: 'a' :: 'l' :: 's' :: 'e' :: r => some (.bool false, r)
  | _ => match readDateTime? cs with
    | some p => some p
    | none => match readFloat? cs with
      | some p => some p
      | none => readInteger? cs

end Toml

end Worksheet
