import Worksheet.Number.Notation

/-!
# Display Formats

How a cell's value is decorated for display.

A format only ever decorates numbers: text that spells no number is shown as
it is, under every format. The number formats and the currencies round to two
places and group the whole part by thousands.

## Main definitions

* `Format`: The formats.
* `grouped`: Two places and groups of thousands.
* `Format.render`: The text to display.
-/

namespace Worksheet

/-- How a value is displayed. -/
inductive Format where
  | normal
  | text
  | number
  | percent
  | rmb
  | usd
  | eur
  | date
  | time
  | datetime
  | duration
  deriving DecidableEq, Repr, Inhabited

namespace Format

/-- Put a comma before every digit that has a multiple of three digits from
    itself to the end, except the first. The digits are given from the last
    to the first, and `n` counts the digits already placed. -/
def groupFrom (n : Nat) : List Char → List Char
  | [] => []
  | c :: cs =>
    if n % 3 = 0 ∧ n ≠ 0 then ',' :: c :: groupFrom (n + 1) cs
    else c :: groupFrom (n + 1) cs

/-- A number with two places and the whole part in groups of three. -/
def grouped (x : Float) : List Char :=
  let cs := Number.fixed 2 x
  let (sign, body) := match cs with
    | '-' :: r => (['-'], r)
    | r => ([], r)
  let whole := body.takeWhile (· != '.')
  let places := body.dropWhile (· != '.')
  sign ++ (groupFrom 0 whole.reverse).reverse ++ places

/-- The text to display for the text of a value. -/
def render (f : Format) (s : String) : String :=
  match Number.ofText? s with
  | none => s
  | some x => match f with
    | .number => String.ofList (grouped x)
    | .percent => String.ofList (Text.trimChars s.toList ++ ['%'])
    | .rmb => String.ofList ('￥' :: grouped x)
    | .usd => String.ofList ('$' :: grouped x)
    | .eur => String.ofList ('€' :: grouped x)
    | _ => s

end Format

end Worksheet
