import Worksheet.Style.Record

/-!
# The Style Table

The styles of a sheet, shared by index.

Cells hold indices into one list of styles. Interning a style gives the index
of an equal one if there is one and appends it otherwise, so a style that is
already shared is never changed in place and an index keeps its meaning for
as long as the table lives. A list read from a document may hold equal styles
twice; interning then finds the first.

## Main definitions

* `StyleTable`: The styles in index order.
* `StyleTable.intern`: The index of a style, appended if it is new.
* `StyleTable.get?`: The style of an index.

## Theorems

* `StyleTable.get?_intern`: Interning gives an index of exactly that style.
* `StyleTable.get?_intern_of_lt`: Interning keeps the meaning of every index.
* `StyleTable.nodup_intern`: Interning makes no style occur twice.
-/

namespace Worksheet

/-- The styles of a sheet, in index order. -/
structure StyleTable where
  styles : List Style := []
  deriving DecidableEq, Repr

namespace StyleTable

/-- The table without styles. -/
def empty : StyleTable := {}

/-- The style of an index. -/
def get? (t : StyleTable) (i : Nat) : Option Style := t.styles[i]?

/-- The number of styles. -/
def size (t : StyleTable) : Nat := t.styles.length

/-- The index of the first style equal to `s`, and the table that has one:
    `s` is appended when no style equals it. -/
def intern (t : StyleTable) (s : Style) : StyleTable × Nat :=
  match t.styles.findIdx? (· == s) with
  | some i => (t, i)
  | none => (⟨t.styles ++ [s]⟩, t.styles.length)

/-- Interning gives an index at which the table holds exactly that style. -/
theorem get?_intern (t : StyleTable) (s : Style) :
    (t.intern s).1.get? (t.intern s).2 = some s := by
  unfold intern get?
  split
  · rename_i i hi
    obtain ⟨h, hp, -⟩ := List.findIdx?_eq_some_iff_getElem.1 hi
    simp_all
  · simp

/-- Interning changes nothing at the indices that were in use. -/
theorem get?_intern_of_lt (t : StyleTable) (s : Style) (i : Nat) (h : i < t.size) :
    (t.intern s).1.get? i = t.get? i := by
  unfold intern get?
  unfold size at h
  split
  · rfl
  · simp [List.getElem?_append_left h]

/-- Interning takes no style away. -/
theorem size_le_size_intern (t : StyleTable) (s : Style) : t.size ≤ (t.intern s).1.size := by
  unfold intern size
  split
  · exact Nat.le_refl _
  · simp

/-- The index of a style is in use. -/
theorem intern_lt_size (t : StyleTable) (s : Style) : (t.intern s).2 < (t.intern s).1.size := by
  obtain ⟨h, -⟩ := List.getElem?_eq_some_iff.1 (get?_intern t s)
  exact h

/-- A style is appended only when no style equals it. -/
theorem nodup_intern {t : StyleTable} (h : t.styles.Nodup) (s : Style) :
    (t.intern s).1.styles.Nodup := by
  unfold intern
  split
  · exact h
  · rename_i hnone
    refine List.nodup_append.2 ⟨h, by simp, fun a ha b hb heq => ?_⟩
    have hother := List.findIdx?_eq_none_iff.1 hnone a ha
    rw [heq, List.mem_singleton.1 hb, beq_self_eq_true] at hother
    cases hother

/-- Read a table from an array of styles. -/
def ofJson? (form : Json.Form) (j : Json) : Option StyleTable :=
  (Json.list? (Style.ofJson? form) j).map StyleTable.mk

/-- The tree of a table. -/
def toJson (t : StyleTable) : Json :=
  .array (t.styles.map Style.toJson)

end StyleTable

end Worksheet
