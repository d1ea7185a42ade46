/-!
# Blank Characters

What counts as blank, and trimming.

A cell that holds only blanks is treated as empty in several places: numbers
are read from trimmed text, required cells refuse blank text, and the filter
menu counts blank cells together. All of them mean the same set of
characters, the Unicode property White_Space, so it is written down once.

## Main definitions

* `isBlank`: The characters with the property White_Space.
* `trim`: Text without the blanks at its two ends.
* `isAllBlank`: Text that is nothing but blanks.
-/

namespace Worksheet

namespace Text

/-- A character with the Unicode property White_Space. The property has
    twenty-five members, five of them the tab to carriage-return run. -/
def isBlank (c : Char) : Bool :=
  let n := c.toNat
  (9 ≤ n && n ≤ 13) || n == 0x20 || n == 0x85 || n == 0xA0 || n == 0x1680 ||
    (0x2000 ≤ n && n ≤ 0x200A) || n == 0x2028 || n == 0x2029 || n == 0x202F ||
    n == 0x205F || n == 0x3000

/-- Characters without the blanks at the two ends. -/
def trimChars (cs : List Char) : List Char :=
  ((cs.dropWhile isBlank).reverse.dropWhile isBlank).reverse

/-- Text without the blanks at its two ends. -/
def trim (s : String) : String :=
  String.ofList (trimChars s.toList)

/-- Text that is empty once trimmed. -/
def isAllBlank (s : String) : Bool :=
  s.toList.all isBlank

end Text

end Worksheet
