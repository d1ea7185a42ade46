import Worksheet.Address.Range

/-!
# Errors

Why an operation on a sheet is refused, and the message for each reason.

A reason is a value that carries what the message mentions, so that the
wording is in one place and callers can tell reasons apart without reading
text.

## Main definitions

* `AddressError`: A text that spells no cell or no range.
* `GridError`: Any reason, with `GridError.message`.
* `parseCell`, `parseRange`: Reading an address, or the reason why not.
-/

namespace Worksheet

/-- A text that was to be an address and is none. -/
inductive AddressError where
  | cell (text : String)
  | range (text : String)
  deriving DecidableEq, Repr

/-- The message of an address error, which quotes the text. -/
def AddressError.message : AddressError → String
  | .cell text => "invalid cell reference: '" ++ text ++ "'"
  | .range text => "invalid cell range: '" ++ text ++ "'"

/-- Read a cell. -/
def parseCell (s : String) : Except AddressError CellRef :=
  match CellRef.ofText? s with
  | some c => .ok c
  | none => .error (.cell s)

/-- Read a range. The error is about the whole text, even when only one of
    its two references is at fault. -/
def parseRange (s : String) : Except AddressError Range :=
  match Range.ofText? s with
  | some r => .ok r
  | none => .error (.range s)

/-- Why an operation is refused. -/
inductive GridError where
  /-- The settings are malformed or contradict themselves. -/
  | settings (message : String)
  /-- A stored sheet cannot be read. -/
  | snapshot (message : String)
  /-- A paste would land on part of a merge. -/
  | pasteIntoMerge
  /-- A cut would take part of this merge. -/
  | cutSplitsMerge (r : Range)
  /-- A new merge would overlap part of this one. -/
  | mergeOverlap (r : Range)
  /-- Nothing is selected. -/
  | noSelection
  /-- There is nothing to paste. -/
  | emptyClipboard
  /-- The sheet is open for reading only. -/
  | readOnly
  | address (e : AddressError)
  deriving DecidableEq, Repr

/-- The message of an error. -/
def GridError.message : GridError → String
  | .settings message => "settings parse error: " ++ message
  | .snapshot message => "snapshot error: " ++ message
  | .pasteIntoMerge => "Unable to paste into merged cells"
  | .cutSplitsMerge r => "Unable to cut part of merged cells " ++ r.toText
  | .mergeOverlap r => "merge would partially overlap existing merge " ++ r.toText
  | .noSelection => "no cells selected"
  | .emptyClipboard => "clipboard is empty"
  | .readOnly => "sheet is read-only"
  | .address e => e.message

end Worksheet
