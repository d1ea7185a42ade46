import Mathlib.Data.List.Induction
import Worksheet.Style.Table

/-!
# The Index of a Style Table

The map in which a style is looked up.

A table of styles is kept with a map from each style to its index, so that
interning need not go through the list. A document holds the list alone. What is
read has its map made from the styles in their order, and where two of them are
equal the map keeps the first.

The map of a table says nothing that the list does not say: however a table was
made, by interning or by reading, its map sends a style to the first index at
which it stands. This is what every step has to keep, and both kinds of step put
one style at the end of the list, so they share the argument. It follows that a
table is the same as the one that is made from its list, and that looking a
style up in the map is searching the list for it.

## Main definitions

* `IndexedStyles`: A list of styles with its map.
* `IndexedStyles.intern`, `IndexedStyles.ofStyles`: Interning a style and reading a list.
* `IndexedStyles.Built`: The tables that come of interning and reading.

## Theorems

* `IndexedStyles.Built.index_eq`: The map has the first index of every style.
* `IndexedStyles.Built.ofStyles_styles`: A table is the one made from its list.
* `IndexedStyles.Built.intern_eq`: Interning by the map is interning by a search.
-/

namespace Worksheet

/-- A list of styles with the map in which they are looked up. -/
structure IndexedStyles where
  styles : List Style := []
  index : Style → Option Nat := fun _ => none

namespace IndexedStyles

/-- The table without its map. -/
def table (t : IndexedStyles) : StyleTable := ⟨t.styles⟩

/-- Put an index under a style, over an old one. -/
def put (index : Style → Option Nat) (s : Style) (i : Nat) : Style → Option Nat :=
  fun x => if x = s then some i else index x

/-- Put an index under a style that has none. -/
def putNew (index : Style → Option Nat) (s : Style) (i : Nat) : Style → Option Nat :=
  match index s with
  | some _ => index
  | none => put index s i

/-- The index of a style by the map; a style that is not in it is appended. -/
def intern (t : IndexedStyles) (s : Style) : IndexedStyles × Nat :=
  match t.index s with
  | some i => (t, i)
  | none => (⟨t.styles ++ [s], put t.index s t.styles.length⟩, t.styles.length)

/-- The table of a list that was read: its styles are entered in their order. -/
def ofStyles (styles : List Style) : IndexedStyles :=
  ⟨styles, styles.zipIdx.foldl (fun index e => putNew index e.1 e.2) fun _ => none⟩

/-- The tables that come of interning and reading. -/
inductive Built : IndexedStyles → Prop
  | empty : Built {}
  | ofStyles (styles : List Style) : Built (ofStyles styles)
  | intern {t : IndexedStyles} (h : Built t) (s : Style) : Built (t.intern s).1

/-- The first index at which a style stands in a list. -/
def firstIndex (styles : List Style) (s : Style) : Option Nat := styles.findIdx? (· == s)

theorem firstIndex_append (styles : List Style) (s x : Style) :
    firstIndex (styles ++ [s]) x =
      (firstIndex styles x).or (if x = s then some styles.length else none) := by
  simp only [firstIndex, List.findIdx?_append, List.findIdx?_singleton, beq_iff_eq,
    eq_comm (a := s)]
  split <;> simp

/-- A new style is put into the map of first indices at the end of the list. -/
theorem put_firstIndex {styles : List Style} {s : Style} (h : firstIndex styles s = none) :
    put (firstIndex styles) s styles.length = firstIndex (styles ++ [s]) := by
  funext x
  rw [put, firstIndex_append]
  by_cases hx : x = s
  · rw [hx, h, if_pos rfl, Option.none_or]
  · rw [if_neg hx, if_neg hx, Option.or_none]

theorem putNew_firstIndex (styles : List Style) (s : Style) :
    putNew (firstIndex styles) s styles.length = firstIndex (styles ++ [s]) := by
  unfold putNew
  split
  -- A style that stands in the list already has its first index there.
  · rename_i i hi
    funext x
    rw [firstIndex_append]
    by_cases hx : x = s
    · rw [hx, hi, Option.some_or]
    · rw [if_neg hx, Option.or_none]
  · rename_i hnone
    exact put_firstIndex hnone

theorem index_ofStyles (styles : List Style) :
    (ofStyles styles).index = firstIndex styles := by
  induction styles using List.reverseRecOn with
  | nil => rfl
  | append_singleton styles s ih =>
    have hfold : (ofStyles (styles ++ [s])).index =
        putNew (ofStyles styles).index s styles.length := by
      simp [ofStyles, List.zipIdx_append]
    rw [hfold, ih, putNew_firstIndex]

namespace Built

variable {t : IndexedStyles}

/-- The map of a table has the first index of every style. -/
theorem index_eq (h : t.Built) : t.index = firstIndex t.styles := by
  induction h with
  | empty => rfl
  | ofStyles styles => exact index_ofStyles styles
  | @intern t h s ih =>
    unfold IndexedStyles.intern
    split
    · exact ih
    · rename_i hnone
      rw [ih] at hnone ⊢
      exact put_firstIndex hnone

/-- A table is the one made from its list. -/
theorem ofStyles_styles (h : t.Built) : IndexedStyles.ofStyles t.styles = t := by
  obtain ⟨styles, index⟩ := t
  have hindex : index = firstIndex styles := h.index_eq
  rw [hindex, ← index_ofStyles]
  rfl

/-- Interning by the map gives the table and the index that a search gives. -/
theorem intern_eq (h : t.Built) (s : Style) :
    ((t.intern s).1.table, (t.intern s).2) = t.table.intern s := by
  unfold IndexedStyles.intern StyleTable.intern
  rw [h.index_eq, firstIndex]
  -- The map and the search agree on whether the style is there, and where.
  cases hfound : t.styles.findIdx? (· == s) with
  | some i => simp only [table, hfound]
  | none => simp only [table, hfound]

end Built

end IndexedStyles

end Worksheet
