import Worksheet.Proofs.RoundTrip
import Worksheet.Proofs.Style.Index

/-!
# Lossless Documents

A snapshot of 64 bits survives being written, and so does the index of its
styles.

Three things can be lost in a document. An index above 64 bits is read as a
double, a height may be read as its neighbour, and a reference has no notation if
its row or its column, counted from one, is more than 64 bits. `Sized` rules out
the first and the last for everything that a snapshot stores, record by record.
Whether the digits of a height are read as that height is a question about the
reader of documents, so it is asked of each height and each width. A document has
no other numbers, so with that it is exact, and an exact document is read back.

The index of the styles is not written. It is made again from the list that was
read, and as the table came of interning or of reading, it is the index that was
there.

## Main definitions

* `Snapshot.Sized`: Every index has 64 bits and every reference a notation.
* `Snapshot.lengths`: The heights and the widths that a snapshot stores.
* `IndexedSnapshot`: A snapshot as it is kept, with the index of its styles.

## Theorems

* `Snapshot.isExact_toJson`: The document of a snapshot of 64 bits is exact.
* `IndexedSnapshot.ofText?_toText_of_built`: The snapshot and its index survive being written.
-/

namespace Worksheet

open Json

/-! ## Records of 64 bits -/

/-- Do the style and the span of a cell fit 64 bits? -/
structure Cell.Sized (c : Cell) : Prop where
  style : ∀ i ∈ c.style, i < UInt64.size
  merge : ∀ s ∈ c.merge, s.rows < UInt64.size ∧ s.cols < UInt64.size

instance (c : Cell) : Decidable c.Sized :=
  decidable_of_iff ((∀ i ∈ c.style, i < UInt64.size) ∧
      ∀ s ∈ c.merge, s.rows < UInt64.size ∧ s.cols < UInt64.size)
    ⟨fun ⟨style, merge⟩ => ⟨style, merge⟩, fun h => ⟨h.style, h.merge⟩⟩

theorem Cell.isExact_toJson {c : Cell} (h : c.Sized) : c.toJson.isExact = true := by
  have hmerge : fieldsAreExact (fieldIf "merge"
      (c.merge.map fun s => .array [ofIndex s.rows, ofIndex s.cols])) = true :=
    fieldsAreExact_fieldIf _ fun s hs => by simp [isExact, areExact, h.merge s hs]
  simp [toJson, isExact, fieldsAreExact_index h.style, hmerge]

/-- Do the style of a row and the columns of its cells fit 64 bits, and what is in
    the cells? -/
structure Row.Sized (r : Row) : Prop where
  cells : ∀ e ∈ r.cells.entries, e.1 < UInt64.size ∧ e.2.Sized
  style : ∀ i ∈ r.style, i < UInt64.size

instance (r : Row) : Decidable r.Sized :=
  decidable_of_iff ((∀ e ∈ r.cells.entries, e.1 < UInt64.size ∧ e.2.Sized) ∧
      ∀ i ∈ r.style, i < UInt64.size)
    ⟨fun ⟨cells, style⟩ => ⟨cells, style⟩, fun h => ⟨h.cells, h.style⟩⟩

theorem Row.isExact_toJson {r : Row} (h : r.Sized)
    (hheight : ∀ x ∈ r.height, reread (.float x) = .float x) : r.toJson.isExact = true := by
  have hcells : (ofIndexMap Cell.toJson r.cells).isExact = true :=
    isExact_ofIndexMap fun e he => Cell.isExact_toJson (h.cells e he).2
  have hheight : fieldsAreExact (fieldIf "height" (r.height.map Json.float)) = true :=
    fieldsAreExact_fieldIf _ fun x hx => isExact_float (hheight x hx)
  simp [toJson, isExact, hcells, hheight, fieldsAreExact_index h.style]

/-- Do the number of rows and their indices fit 64 bits, and what is in the rows? -/
structure Rows.Sized (s : Rows) : Prop where
  len : s.len < UInt64.size
  rows : ∀ e ∈ s.rows.entries, e.1 < UInt64.size ∧ e.2.Sized

instance (s : Rows) : Decidable s.Sized :=
  decidable_of_iff (s.len < UInt64.size ∧ ∀ e ∈ s.rows.entries, e.1 < UInt64.size ∧ e.2.Sized)
    ⟨fun ⟨len, rows⟩ => ⟨len, rows⟩, fun h => ⟨h.len, h.rows⟩⟩

/-- The heights that rows are stored with. -/
def Rows.heights (s : Rows) : List Float := s.rows.entries.filterMap fun e => e.2.height

theorem Rows.isExact_toJson {s : Rows} (h : s.Sized)
    (hheights : ∀ x ∈ s.heights, reread (.float x) = .float x) : s.toJson.isExact = true := by
  have hrows : (ofIndexMap Row.toJson s.rows).isExact = true :=
    isExact_ofIndexMap fun e he => Row.isExact_toJson (h.rows e he).2 fun x hx =>
      hheights x (List.mem_filterMap.2 ⟨e, he, hx⟩)
  simp [toJson, isExact, fieldsAreExact, hrows, h.len]

/-- Do the number of columns, their indices and their styles fit 64 bits? -/
structure Columns.Sized (s : Columns) : Prop where
  len : s.len < UInt64.size
  cols : ∀ e ∈ s.cols.entries, e.1 < UInt64.size ∧ ∀ i ∈ e.2.style, i < UInt64.size

instance (s : Columns) : Decidable s.Sized :=
  decidable_of_iff (s.len < UInt64.size ∧
      ∀ e ∈ s.cols.entries, e.1 < UInt64.size ∧ ∀ i ∈ e.2.style, i < UInt64.size)
    ⟨fun ⟨len, cols⟩ => ⟨len, cols⟩, fun h => ⟨h.len, h.cols⟩⟩

/-- The widths that columns are stored with. -/
def Columns.widths (s : Columns) : List Float := s.cols.entries.filterMap fun e => e.2.width

theorem Column.isExact_toJson {c : Column} (h : ∀ i ∈ c.style, i < UInt64.size)
    (hwidth : ∀ x ∈ c.width, reread (.float x) = .float x) : c.toJson.isExact = true := by
  have hwidth : fieldsAreExact (fieldIf "width" (c.width.map Json.float)) = true :=
    fieldsAreExact_fieldIf _ fun x hx => isExact_float (hwidth x hx)
  simp [toJson, isExact, hwidth, fieldsAreExact_index h]

theorem Columns.isExact_toJson {s : Columns} (h : s.Sized)
    (hwidths : ∀ x ∈ s.widths, reread (.float x) = .float x) : s.toJson.isExact = true := by
  have hcols : (ofIndexMap Column.toJson s.cols).isExact = true :=
    isExact_ofIndexMap fun e he => Column.isExact_toJson (h.cols e he).2 fun x hx =>
      hwidths x (List.mem_filterMap.2 ⟨e, he, hx⟩)
  simp [toJson, isExact, fieldsAreExact, hcols, h.len]

theorem Merges.isExact_toJson (m : Merges) : m.toJson.isExact = true := by
  rw [toJson, isExact]
  exact areExact_map fun _ _ => rfl

/-! ## Styles, filters and rules -/

theorem Border.isExact_toJson (b : Border) : b.toJson.isExact = true := by
  have hedge (name : String) (o : Option BorderEdge) :
      fieldsAreExact (fieldIf name (o.map BorderEdge.toJson)) = true :=
    fieldsAreExact_fieldIf name fun e _ => by simp [BorderEdge.toJson, isExact, areExact]
  simp [toJson, isExact, hedge]

/-- Does the size of a style's font fit sixteen bits? -/
def Style.Sized (s : Style) : Prop := ∀ f ∈ s.font, ∀ n ∈ f.size, n < UInt16.size

instance (s : Style) : Decidable s.Sized :=
  inferInstanceAs (Decidable (∀ f ∈ s.font, ∀ n ∈ f.size, n < UInt16.size))

theorem Style.isExact_toJson {s : Style} (h : s.Sized) : s.toJson.isExact = true := by
  have hfont : fieldsAreExact (fieldIf "font" (s.font.map Font.toJson)) = true :=
    fieldsAreExact_fieldIf _ fun f hf => by
      have hsize : ∀ n ∈ f.size, n < UInt64.size := fun n hn =>
        Nat.lt_trans (h f hf n hn) (by decide)
      simp [Font.toJson, isExact, fieldsAreExact_index hsize]
  have hborder : fieldsAreExact (fieldIf "border" (s.border.map Border.toJson)) = true :=
    fieldsAreExact_fieldIf _ fun b _ => Border.isExact_toJson b
  simp [toJson, isExact, hfont, hborder]

theorem StyleTable.isExact_toJson {t : StyleTable} (h : ∀ s ∈ t.styles, s.Sized) :
    t.toJson.isExact = true := by
  rw [toJson, isExact]
  exact areExact_map fun s hs => Style.isExact_toJson (h s hs)

/-- Do the columns of a filter fit 64 bits, and has its range a notation? -/
structure AutoFilter.Sized (a : AutoFilter) : Prop where
  range : ∀ r ∈ a.range, r.Fits
  filters : ∀ f ∈ a.filters, f.col < UInt64.size
  sort : ∀ s ∈ a.sort, s.col < UInt64.size

instance (a : AutoFilter) : Decidable a.Sized :=
  decidable_of_iff ((∀ r ∈ a.range, r.Fits) ∧ (∀ f ∈ a.filters, f.col < UInt64.size) ∧
      ∀ s ∈ a.sort, s.col < UInt64.size)
    ⟨fun ⟨range, filters, sort⟩ => ⟨range, filters, sort⟩, fun h => ⟨h.range, h.filters, h.sort⟩⟩

theorem Filter.isExact_toJson {f : Filter} (h : f.col < UInt64.size) :
    f.toJson.isExact = true := by
  have hvalues : areExact (f.values.map Json.string) = true := areExact_map fun _ _ => rfl
  simp [toJson, isExact, fieldsAreExact, h, hvalues]

theorem AutoFilter.isExact_toJson {a : AutoFilter} (h : a.Sized) : a.toJson.isExact = true := by
  have hrange : fieldsAreExact (fieldIf "ref" (a.range.map ofRange)) = true :=
    fieldsAreExact_fieldIf _ fun _ _ => rfl
  have hfilters : areExact (a.filters.map Filter.toJson) = true :=
    areExact_map fun f hf => Filter.isExact_toJson (h.filters f hf)
  have hsort : fieldsAreExact (fieldIf "sort" (a.sort.map ColumnSort.toJson)) = true :=
    fieldsAreExact_fieldIf _ fun s hs => by
      simp [ColumnSort.toJson, isExact, fieldsAreExact, h.sort s hs]
  rw [toJson, isExact, fieldsAreExact_append, fieldsAreExact_append, fieldsAreExact_unless,
    isExact, hrange, hfilters, hsort, Bool.or_true]
  rfl

theorem Rule.isExact_toJson (r : Rule) : r.toJson.isExact = true := by
  have hrefs : areExact (r.refs.map ofRange) = true := areExact_map fun _ _ => rfl
  simp [toJson, Validator.toFields, isExact, fieldsAreExact, hrefs]

/-! ## Snapshots -/

/-- Do the indices of a snapshot fit 64 bits, and has each of its references a
    notation? -/
structure Snapshot.Sized (d : Snapshot) : Prop where
  freeze : d.freeze.Fits
  styles : ∀ s ∈ d.styles.styles, s.Sized
  merges : ∀ r ∈ d.merges.ranges, r.Fits
  rows : d.rows.Sized
  cols : d.cols.Sized
  rules : ∀ r ∈ d.rules, ∀ x ∈ r.refs, x.Fits
  filter : d.filter.Sized

namespace Snapshot

variable {d : Snapshot}

instance (d : Snapshot) : Decidable d.Sized :=
  decidable_of_iff (d.freeze.Fits ∧ (∀ s ∈ d.styles.styles, s.Sized) ∧
      (∀ r ∈ d.merges.ranges, r.Fits) ∧ d.rows.Sized ∧ d.cols.Sized ∧
      (∀ r ∈ d.rules, ∀ x ∈ r.refs, x.Fits) ∧ d.filter.Sized)
    ⟨fun ⟨freeze, styles, merges, rows, cols, rules, filter⟩ =>
        ⟨freeze, styles, merges, rows, cols, rules, filter⟩,
      fun h => ⟨h.freeze, h.styles, h.merges, h.rows, h.cols, h.rules, h.filter⟩⟩

/-- The heights and the widths that a snapshot stores. -/
def lengths (d : Snapshot) : List Float := d.rows.heights ++ d.cols.widths

theorem isExact_toJson (h : d.Sized) (hlengths : ∀ x ∈ d.lengths, reread (.float x) = .float x) :
    d.toJson.isExact = true := by
  have hrows : d.rows.toJson.isExact = true :=
    Rows.isExact_toJson h.rows fun x hx => hlengths x (List.mem_append_left _ hx)
  have hcols : d.cols.toJson.isExact = true :=
    Columns.isExact_toJson h.cols fun x hx => hlengths x (List.mem_append_right _ hx)
  have hrules : areExact (d.rules.map Rule.toJson) = true :=
    areExact_map fun r _ => Rule.isExact_toJson r
  simp [toJson, isExact, fieldsAreExact, StyleTable.isExact_toJson h.styles,
    Merges.isExact_toJson, hrows, hcols, hrules, AutoFilter.isExact_toJson h.filter]

/-- A snapshot of 64 bits can be read back if its heights and widths can. -/
theorem legible_of_sized (h : d.Sized)
    (hlengths : ∀ x ∈ d.lengths, reread (.float x) = .float x) : d.Legible where
  numbers := isExact_toJson h hlengths
  freeze := h.freeze
  sizes := h.styles
  merges := h.merges
  rows := fun e he => ⟨(h.rows.rows e he).1, fun f hf => ((h.rows.rows e he).2.cells f hf).1⟩
  cols := fun e he => (h.cols.cols e he).1
  rules := h.rules
  filter := h.filter.range

end Snapshot

/-! ## Snapshots with the index of their styles -/

/-- A snapshot as it is kept: its styles have an index. -/
structure IndexedSnapshot extends Snapshot where
  index : Style → Option Nat

namespace IndexedSnapshot

/-- The styles with their index. -/
def indexedStyles (d : IndexedSnapshot) : IndexedStyles := ⟨d.styles.styles, d.index⟩

/-- The snapshot of a document, with the index that is made for its styles. -/
def ofText? (text : String) : Option IndexedSnapshot :=
  (Snapshot.ofText? text).map fun d => ⟨d, (IndexedStyles.ofStyles d.styles.styles).index⟩

/-- A snapshot of 64 bits whose styles were interned or read survives being
    written, with the index of its styles, if its heights and widths are finite
    and every finite one is read back as it was. -/
theorem ofText?_toText_of_built {d : IndexedSnapshot} (hbuilt : d.indexedStyles.Built)
    (hsized : d.toSnapshot.Sized) (hfinite : ∀ x ∈ d.lengths, x.isFinite = true)
    (hlengths : ∀ x ∈ d.lengths, x.isFinite = true → reread (.float x) = .float x) :
    ofText? d.toText = some d := by
  have hlegible : d.toSnapshot.Legible :=
    Snapshot.legible_of_sized hsized fun x hx => hlengths x hx (hfinite x hx)
  -- The list of styles is read back, and its index is the one that is made again.
  have hindex : (IndexedStyles.ofStyles d.styles.styles).index = d.index :=
    congrArg IndexedStyles.index hbuilt.ofStyles_styles
  rw [ofText?, Snapshot.ofText?_toText hlegible, Option.map_some, hindex]

/-- Styles that were interned, one of them twice. -/
def internedStyles : IndexedStyles :=
  let bold : Style := { font := some { size := some 12, bold := some true } }
  let centred : Style := { align := some .center, background := some "#eee" }
  ((({} : IndexedStyles).intern bold).1.intern centred).1.intern bold |>.1

/-- A snapshot with something in every part of it. -/
def furnished : IndexedSnapshot where
  name := "prices \"net\""
  freeze := ⟨1, 2⟩
  styles := internedStyles.table
  merges := ⟨[.spanning ⟨2, 2⟩ 1 1]⟩
  rows :=
    { len := 100
      rows := .ofList
        [(2, { cells := .ofList
                [(0, { text := some "=A1+1", style := some 1 }),
                 (2, { merge := some ⟨1, 1⟩, editable := false })]
               height := some 25.5, style := some 0 }),
         (7, { hidden := true })] }
  cols := { len := 26, cols := .ofList [(1, { width := some 80.0, hidden := true })] }
  rules := [⟨[.spanning ⟨0, 0⟩ 9 0, .single ⟨3, 3⟩], "cell",
    { kind := .number, required := true, value := "1,9", comparison := some .between }⟩]
  filter :=
    { range := some (.spanning ⟨0, 0⟩ 9 2)
      filters := [⟨1, .oneOf, ["a", "b"]⟩]
      sort := some ⟨2, .descending⟩ }
  index := internedStyles.index

theorem ofText?_toText_furnished :
    furnished.indexedStyles.Built ∧ furnished.toSnapshot.Sized ∧
      (∀ x ∈ furnished.lengths, x.isFinite = true) ∧
      (∀ x ∈ furnished.lengths, x.isFinite = true → reread (.float x) = .float x) ∧
      ofText? furnished.toText = some furnished := by
  have hbuilt : internedStyles.Built := ((IndexedStyles.Built.empty.intern _).intern _).intern _
  have hsized : furnished.toSnapshot.Sized := by decide
  have hfinite : ∀ x ∈ furnished.lengths, x.isFinite = true := by decide
  have hexact : ∀ x ∈ furnished.lengths, (Json.float x).isExact = true := by decide +kernel
  have hlengths : ∀ x ∈ furnished.lengths, x.isFinite = true → reread (.float x) = .float x :=
    fun x hx _ => reread_of_isExact _ (hexact x hx)
  exact ⟨hbuilt, hsized, hfinite, hlengths, ofText?_toText_of_built hbuilt hsized hfinite hlengths⟩

/-- A snapshot of nothing but a frozen cell and merges. -/
def plain (freeze : CellRef) (merges : List Range) : IndexedSnapshot where
  freeze := freeze
  merges := ⟨merges⟩
  index := ({} : IndexedStyles).index

theorem built_plain (freeze : CellRef) (merges : List Range) :
    (plain freeze merges).indexedStyles.Built ∧
      ∀ x ∈ (plain freeze merges).lengths, x.isFinite = true :=
  ⟨.empty, fun _ hx => nomatch hx⟩

/-- The last row has no number, so the document of a sheet that is frozen there is not
    read. A merge of a square with sides of 2 ^ 32 has its cells counted as none: it is
    written as its first cell, and read as that. -/
theorem ofText?_toText_last_row :
    let frozen := plain ⟨Address.gridLimit - 1, 0⟩ []
    let merged := plain .origin [.spanning .origin (UInt32.size - 1) (UInt32.size - 1)]
    (frozen.indexedStyles.Built ∧ (∀ x ∈ frozen.lengths, x.isFinite = true) ∧
      ofText? frozen.toText = none) ∧
    (merged.indexedStyles.Built ∧ (∀ x ∈ merged.lengths, x.isFinite = true) ∧
      (ofText? merged.toText).map (fun d => d.merges.ranges) = some [.single .origin]) := by
  have hmerges (text : String) : (ofText? text).map (fun d => d.merges.ranges) =
      (Snapshot.ofText? text).map fun d => d.merges.ranges := by
    rw [ofText?, Option.map_map]
    rfl
  have hfrozen : Snapshot.ofText? (plain ⟨Address.gridLimit - 1, 0⟩ []).toText = none := by
    rw [← Option.isNone_iff_eq_none]
    decide +kernel
  refine ⟨⟨(built_plain _ _).1, (built_plain _ _).2, ?_⟩, (built_plain _ _).1,
    (built_plain _ _).2, ?_⟩
  · rw [ofText?, hfrozen, Option.map_none]
  · rw [hmerges]
    decide +kernel

end IndexedSnapshot

end Worksheet
