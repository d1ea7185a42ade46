/-!
# Splitting and Joining

Cutting text at a separator.

A list rule keeps its choices in one comma-separated text, a block of pasted
cells arrives as lines and tabs, and a range is two references around a
colon. Cutting at every separator keeps the empty pieces, which is why a
pasted block has exactly the shape it was copied with.

## Main definitions

* `splitOn`: The pieces between the separators, empty ones included.
* `cutAt`: The text before the first separator and the text after it.
* `lines`: The pieces between line ends.

## Theorems

* `splitOn_ne_nil`: Splitting gives at least one piece.
-/

namespace Worksheet

namespace Text

/-- The pieces of `cs` between the characters equal to `sep`. There is always
    at least one piece. -/
def splitOn (sep : Char) : List Char → List (List Char)
  | [] => [[]]
  | c :: cs =>
    if c = sep then [] :: splitOn sep cs
    else match splitOn sep cs with
      | [] => [[c]]
      | piece :: rest => (c :: piece) :: rest

/-- The characters before the first `sep` and those after it, or `none` when
    there is no `sep`. -/
def cutAt (sep : Char) : List Char → Option (List Char × List Char)
  | [] => none
  | c :: cs =>
    if c = sep then some ([], cs)
    else (cutAt sep cs).map fun p => (c :: p.1, p.2)

/-- The pieces of `cs` between carriage-return and newline pairs. A lone
    carriage return or newline is an ordinary character. -/
def splitOnPairs : List Char → List (List Char)
  | [] => [[]]
  | '\r' :: '\n' :: cs => [] :: splitOnPairs cs
  | c :: cs => match splitOnPairs cs with
    | [] => [[c]]
    | piece :: rest => (c :: piece) :: rest

/-- Does a carriage return stand directly before a newline? -/
def hasPair : List Char → Bool
  | [] => false
  | '\r' :: '\n' :: _ => true
  | _ :: cs => hasPair cs

/-- The lines of `cs`. One carriage-return and newline pair anywhere makes
    such pairs the separator; without any, newlines are. -/
def lines (cs : List Char) : List (List Char) :=
  if hasPair cs then splitOnPairs cs else splitOn '\n' cs

/-- Splitting gives at least one piece. -/
theorem splitOn_ne_nil (sep : Char) (cs : List Char) : splitOn sep cs ≠ [] := by
  cases cs with
  | nil => simp [splitOn]
  | cons c cs =>
    simp only [splitOn]
    split
    · simp
    · split <;> simp

end Text

end Worksheet
