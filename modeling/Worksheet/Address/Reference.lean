import Worksheet.Address.CellRef

/-!
# The References of a Formula

Finding and moving the references inside a formula text.

A reference stands in a formula as a run of word characters that is one to
three letters followed by digits. Such a run is not a reference inside a
quoted text, and it is a function name when an opening parenthesis follows
it directly (`LOG10(`). The text is first cut into words and single
characters, with quoted text falling apart into single characters. Moving
then replaces whole words and copies everything else, and since the pieces
joined together are the text, nothing but the references can change.

## Main definitions

* `Piece`: A word, or one character outside any word.
* `pieces`: A formula text cut into pieces.
* `isReference`: The shape of a reference.
* `mapReferences`: Replace every reference.
* `references`: The references, in order.
* `shift`: Move one reference when it is to be moved.
* `shiftReferences`: Move every reference of a formula.
-/

namespace Worksheet

namespace Address

/-- A part of a formula text. -/
inductive Piece where
  /-- A run of word characters, as long as it can be, outside quotes. -/
  | word (run : List Char)
  /-- Any other character, and every character of a quoted text. -/
  | plain (c : Char)
  deriving DecidableEq, Repr

/-- Put a word character in front of pieces; it joins a word that starts
    there. -/
def consWord (c : Char) : List Piece → List Piece
  | .word run :: ps => .word (c :: run) :: ps
  | ps => .word [c] :: ps

/-- Cut a text into pieces. `quoted` says that the text starts inside a quoted
    part; a quote that is never closed runs to the end. -/
def piecesFrom (quoted : Bool) : List Char → List Piece
  | [] => []
  | c :: cs =>
    if quoted then .plain c :: piecesFrom (c != '"') cs
    else if c == '"' then .plain c :: piecesFrom true cs
    else if Text.isWord c then consWord c (piecesFrom false cs)
    else .plain c :: piecesFrom false cs

/-- A formula text cut into pieces. -/
def pieces (cs : List Char) : List Piece :=
  piecesFrom false cs

/-- One to three letters followed by at least one digit and nothing else. -/
def isReference (run : List Char) : Bool :=
  let letters := run.takeWhile Text.isLetter
  let digits := run.dropWhile Text.isLetter
  0 < letters.length && letters.length ≤ 3 && digits != [] && digits.all Text.isDecimal

/-- Join pieces to a text, with `f` applied to every reference. A word that
    is followed by an opening parenthesis is the name of a function. -/
def joinWith (f : List Char → List Char) : List Piece → List Char
  | [] => []
  | .word run :: .plain '(' :: ps => run ++ '(' :: joinWith f ps
  | .word run :: ps => (if isReference run then f run else run) ++ joinWith f ps
  | .plain c :: ps => c :: joinWith f ps

/-- The references among pieces, in order. -/
def referencesOf : List Piece → List (List Char)
  | [] => []
  | .word _ :: .plain '(' :: ps => referencesOf ps
  | .word run :: ps => if isReference run then run :: referencesOf ps else referencesOf ps
  | .plain _ :: ps => referencesOf ps

/-- Replace every reference of a formula text by `f` of it. -/
def mapReferences (f : List Char → List Char) (formula : List Char) : List Char :=
  joinWith f (pieces formula)

/-- The references of a formula text, in order. -/
def references (formula : List Char) : List (List Char) :=
  referencesOf (pieces formula)

/-- What stands in place of a reference that left the grid. -/
def lostReference : List Char := ['#', 'R', 'E', 'F', '!']

/-- Move a reference that `moves` picks. Text that is no reference stays, and
    a reference moved off the grid is lost. -/
def shift (d : Displacement) (moves : CellRef → Bool) (reference : List Char) : List Char :=
  match CellRef.ofChars? reference with
  | none => reference
  | some r =>
    if moves r then
      match r.move? d with
      | some r' => r'.toChars
      | none => lostReference
    else reference

/-- Move the references of a formula that `moves` picks. -/
def shiftReferences (d : Displacement) (moves : CellRef → Bool) (formula : List Char) : List Char :=
  mapReferences (shift d moves) formula

end Address

end Worksheet
