import Worksheet.Proofs.Json.Codec
import Worksheet.Snapshot

/-!
# Round Trips of Snapshots

A snapshot that is written can be read back, and is the one that was written.

Every record is written with the fields that are not at their defaults, and read
with the defaults for the fields that are missing, so what is written for each
record is read back as that record. For most of them nothing has to be asked. A
font is read with a size of sixteen bits, a map with keys of 64 bits, and a
reference only if its row and its column, counted from one, are. `Legible` says
these things of a whole snapshot, and that its document is exact.

A rule shares its object with its validator, so its fields are first told apart.

## Main definitions

* `Snapshot.Legible`: A snapshot that can be read back.

## Theorems

* `Cell.ofJson?_toJson`, and the same of the other records: Reading gives what was written.
* `Snapshot.ofText?_toText`: A legible snapshot survives being written.
-/

namespace Worksheet

open Json

/-! ## Words -/

section

variable (form : Form)

@[simp] theorem Align.choice?_word (a : Align) : choice? form words (.string a.word) = some a := by
  cases a <;> rfl

@[simp] theorem VerticalAlign.choice?_word (a : VerticalAlign) :
    choice? form words (.string a.word) = some a := by
  cases a <;> rfl

@[simp] theorem Format.choice?_word (f : Format) :
    choice? form words (.string f.word) = some f := by
  cases f <;> rfl

@[simp] theorem LineStyle.choice?_word (l : LineStyle) :
    choice? form words (.string l.word) = some l := by
  cases l <;> rfl

@[simp] theorem FilterOperator.choice?_word (o : FilterOperator) :
    choice? form words (.string o.word) = some o := by
  cases o <;> rfl

@[simp] theorem SortOrder.choice?_word (o : SortOrder) :
    choice? form words (.string o.word) = some o := by
  cases o <;> rfl

@[simp] theorem ValidatorKind.choice?_word (k : ValidatorKind) :
    choice? form words (.string k.word) = some k := by
  cases k <;> rfl

@[simp] theorem Comparison.choice?_word (c : Comparison) :
    choice? form words (.string c.word) = some c := by
  cases c <;> rfl

end

/-! ## Cells and lines -/

section

variable (form : Form)

theorem Cell.ofJson?_toJson (c : Cell) : ofJson? form c.toJson = some c := by
  have hmerge : optional? (fun j => (indexPair? j).map fun p => (⟨p.1, p.2⟩ : Span))
      (c.merge.map fun s => .array [ofIndex s.rows, ofIndex s.cols]) = some c.merge :=
    optional?_map rfl fun s _ => by rw [indexPair?_array, Option.map_some]
  have heditable : withDefault? bool? true
      (if c.editable = false then some (.bool false) else none) = some c.editable := by
    cases c.editable <;> rfl
  simp only [ofJson?, toJson]
  rw [record?_object (by decide) form]
  · simp [find?_append, find?_fieldIf, find?_unless, hmerge, heditable]
  · simp only [List.map_append]
    exact ((((names_fieldIf _ _).append (names_fieldIf _ _)).append (names_fieldIf _ _)).append
      (names_unless _ _ _)).append (names_fieldIf _ _)

/-- A flag is written only when it is set. -/
theorem withDefault?_flag (b : Bool) :
    withDefault? bool? false (if b then some (.bool true) else none) = some b := by
  cases b <;> rfl

theorem Row.ofJson?_toJson {r : Row} (h : ∀ e ∈ r.cells.entries, e.1 < Address.gridLimit) :
    ofJson? form r.toJson = some r := by
  have hcells : withDefault? (indexMap? (Cell.ofJson? form)) .empty
      (if r.cells.isEmpty = false then some (ofIndexMap Cell.toJson r.cells) else none) =
        some r.cells := by
    by_cases hempty : r.cells.isEmpty = false
    · rw [if_pos hempty]
      exact indexMap?_ofIndexMap fun e he => ⟨h e he, Cell.ofJson?_toJson form e.2⟩
    -- Cells that are not written are read as none, which is what they are.
    · have hnone : r.cells.entries = [] := by simpa [SparseMap.isEmpty] using hempty
      rw [if_neg hempty, withDefault?]
      exact congrArg some (SparseMap.eq_of_entries hnone.symm)
  simp only [ofJson?, toJson]
  rw [record?_object (by decide) form]
  · simp [find?_append, find?_fieldIf, find?_fieldWhen, find?_unless, hcells, withDefault?_flag]
  · simp only [List.map_append]
    exact (((names_unless _ _ _).append (names_fieldIf _ _)).append (names_fieldWhen _ _)).append
      (names_fieldIf _ _)

theorem Rows.ofJson?_toJson {s : Rows} (h : ∀ e ∈ s.rows.entries, e.1 < Address.gridLimit ∧
    ∀ f ∈ e.2.cells.entries, f.1 < Address.gridLimit) : ofJson? form s.toJson = some s := by
  have hrows : withDefault? (indexMap? (Row.ofJson? form)) .empty
      (some (ofIndexMap Row.toJson s.rows)) = some s.rows :=
    indexMap?_ofIndexMap fun e he => ⟨(h e he).1, Row.ofJson?_toJson form (h e he).2⟩
  simp only [ofJson?, toJson]
  rw [record?_object (by decide) form]
  · simp [find?, required?, hrows]
  · exact .refl _

theorem Column.ofJson?_toJson (c : Column) : ofJson? form c.toJson = some c := by
  simp only [ofJson?, toJson]
  rw [record?_object (by decide) form]
  · simp [find?_append, find?_fieldIf, find?_fieldWhen, withDefault?_flag]
  · simp only [List.map_append]
    exact ((names_fieldIf _ _).append (names_fieldWhen _ _)).append (names_fieldIf _ _)

theorem Columns.ofJson?_toJson {s : Columns} (h : ∀ e ∈ s.cols.entries, e.1 < Address.gridLimit) :
    ofJson? form s.toJson = some s := by
  have hcols : withDefault? (indexMap? (Column.ofJson? form)) .empty
      (some (ofIndexMap Column.toJson s.cols)) = some s.cols :=
    indexMap?_ofIndexMap fun e he => ⟨h e he, Column.ofJson?_toJson form e.2⟩
  simp only [ofJson?, toJson]
  rw [record?_object (by decide) form]
  · simp [find?, required?, hcols]
  · exact .refl _

theorem Merges.ofJson?_toJson {m : Merges} (h : ∀ r ∈ m.ranges, r.Fits) :
    ofJson? m.toJson = some m := by
  rw [ofJson?, toJson, list?_map fun r hr => range?_ofRange (h r hr)]
  rfl

/-! ## Styles -/

theorem BorderEdge.ofJson?_toJson (e : BorderEdge) : ofJson? form e.toJson = some e := by
  simp [ofJson?, toJson, text?]

theorem Border.ofJson?_toJson (b : Border) : ofJson? form b.toJson = some b := by
  have hedge (o : Option BorderEdge) :
      optional? (BorderEdge.ofJson? form) (o.map BorderEdge.toJson) = some o :=
    optional?_map rfl fun e _ => BorderEdge.ofJson?_toJson form e
  simp only [ofJson?, toJson]
  rw [record?_object (by decide) form]
  · simp [find?_append, find?_fieldIf, hedge]
  · simp only [List.map_append]
    exact (((names_fieldIf _ _).append (names_fieldIf _ _)).append (names_fieldIf _ _)).append
      (names_fieldIf _ _)

theorem Font.ofJson?_toJson {f : Font} (h : ∀ n ∈ f.size, n < UInt16.size) :
    ofJson? form f.toJson = some f := by
  have hsize : optional? short? (f.size.map ofIndex) = some f.size :=
    optional?_map rfl fun n hn => short?_ofIndex (h n hn)
  simp only [ofJson?, toJson]
  rw [record?_object (by decide) form]
  · simp [find?_append, find?_fieldIf, hsize]
  · simp only [List.map_append]
    exact (((names_fieldIf _ _).append (names_fieldIf _ _)).append (names_fieldIf _ _)).append
      (names_fieldIf _ _)

/-- A word is not read from null. -/
theorem optional?_word {α : Type} {words : List (String × α)} {word : α → String}
    (h : ∀ a, choice? form words (.string (word a)) = some a) (o : Option α) :
    optional? (choice? form words) (o.map fun a => .string (word a)) = some o :=
  optional?_map rfl fun a _ => h a

theorem Style.ofJson?_toJson {s : Style} (h : ∀ f ∈ s.font, ∀ n ∈ f.size, n < UInt16.size) :
    ofJson? form s.toJson = some s := by
  have halign := optional?_word form (Align.choice?_word form) s.align
  have hvertical := optional?_word form (VerticalAlign.choice?_word form) s.verticalAlign
  have hformat := optional?_word form (Format.choice?_word form) s.format
  have hfont : optional? (Font.ofJson? form) (s.font.map Font.toJson) = some s.font :=
    optional?_map rfl fun f hf => Font.ofJson?_toJson form (h f hf)
  have hborder : optional? (Border.ofJson? form) (s.border.map Border.toJson) = some s.border :=
    optional?_map rfl fun b _ => Border.ofJson?_toJson form b
  simp only [ofJson?, toJson]
  rw [record?_object (by decide) form]
  · simp [find?_append, find?_fieldIf, halign, hvertical, hformat, hfont, hborder]
  · simp only [List.map_append]
    exact (((((((((names_fieldIf _ _).append (names_fieldIf _ _)).append
      (names_fieldIf _ _)).append (names_fieldIf _ _)).append (names_fieldIf _ _)).append
      (names_fieldIf _ _)).append (names_fieldIf _ _)).append (names_fieldIf _ _)).append
      (names_fieldIf _ _)).append (names_fieldIf _ _)

theorem StyleTable.ofJson?_toJson {t : StyleTable}
    (h : ∀ s ∈ t.styles, ∀ f ∈ s.font, ∀ n ∈ f.size, n < UInt16.size) :
    ofJson? form t.toJson = some t := by
  rw [ofJson?, toJson, list?_map fun s hs => Style.ofJson?_toJson form (h s hs)]
  rfl

/-! ## Filters and rules -/

theorem Filter.ofJson?_toJson (f : Filter) : ofJson? form f.toJson = some f := by
  have hvalues : withDefault? (list? text?) [] (some (.array (f.values.map Json.string))) =
      some f.values :=
    list?_map fun _ _ => rfl
  simp only [ofJson?, toJson]
  rw [record?_object (by decide) form]
  · simp [find?, required?, hvalues]
  · exact .refl _

theorem ColumnSort.ofJson?_toJson (s : ColumnSort) : ofJson? form s.toJson = some s := by
  simp only [ofJson?, toJson]
  rw [record?_object (by decide) form]
  · simp [find?, required?]
  · exact .refl _

theorem AutoFilter.ofJson?_toJson {a : AutoFilter} (h : ∀ r ∈ a.range, r.Fits) :
    ofJson? form a.toJson = some a := by
  have hrange : optional? range? (a.range.map ofRange) = some a.range :=
    optional?_map rfl fun r hr => range?_ofRange (h r hr)
  have hsort : optional? (ColumnSort.ofJson? form) (a.sort.map ColumnSort.toJson) = some a.sort :=
    optional?_map rfl fun s _ => ColumnSort.ofJson?_toJson form s
  have hfilters : list? (Filter.ofJson? form) (.array (a.filters.map Filter.toJson)) =
      some a.filters :=
    list?_map fun f _ => Filter.ofJson?_toJson form f
  simp only [ofJson?, toJson]
  rw [record?_object (by decide) form]
  · obtain ⟨range, filters, sort⟩ := a
    -- Filters are left out when there are none.
    cases filters with
    | nil => simp [find?_append, find?_fieldIf, withDefault?, hrange, hsort]
    | cons f fs => simp_all [find?_append, find?_fieldIf, find?, withDefault?]
  · simp only [List.map_append]
    exact ((names_fieldIf _ _).append (names_unless _ _ _)).append (names_fieldIf _ _)

theorem Validator.ofJson?_toJson (v : Validator) : ofJson? form v.toJson = some v := by
  have hcomparison := optional?_word form (Comparison.choice?_word form) v.comparison
  simp only [ofJson?, toJson, toFields]
  rw [record?_object (by decide) form]
  · simp [find?_fieldIf, find?, required?, withDefault?, bool?, text?, hcomparison]
  · simp only [List.map_append]
    exact List.Sublist.append (.refl ["type", "required", "value"]) (names_fieldIf _ _)

/-- The fields of a validator can be told from those of its rule. -/
theorem Validator.name_of_mem_toFields {v : Validator} {f : String × Json} (h : f ∈ v.toFields) :
    (f.1 == "refs" || f.1 == "mode") = false := by
  have hname : f.1 ∈ v.toFields.map Prod.fst := List.mem_map_of_mem h
  have hnames : (v.toFields.map Prod.fst).Sublist fieldNames := by
    simp only [toFields, List.map_append]
    exact List.Sublist.append (.refl ["type", "required", "value"]) (names_fieldIf _ _)
  -- No name of a validator is one of the rule, which is a matter of looking at them.
  have hknown : ∀ name ∈ fieldNames, (name == "refs" || name == "mode") = false := by decide
  exact hknown f.1 (hnames.subset hname)

theorem Validator.isPlain_toFields (v : Validator) :
    fieldsAreReadable v.toFields = true ∧ fieldDepths v.toFields ≤ Rule.maxDepth := by
  cases hcomparison : v.comparison <;>
    simp [toFields, fieldIf, hcomparison, fieldsAreReadable, isReadable, fieldDepths, depth]

theorem Rule.ofJson?_toJson {r : Rule} (h : ∀ x ∈ r.refs, x.Fits) :
    ofJson? form r.toJson = some r := by
  let own : List (String × Json) :=
    [("refs", .array (r.refs.map ofRange)), ("mode", .string r.mode)]
  -- The fields of the object fall into those of the rule and those of the validator.
  have hown : (own ++ r.validator.toFields).filter (fun f => f.1 == "refs" || f.1 == "mode") =
      own := by
    have hnone : r.validator.toFields.filter (fun f => f.1 == "refs" || f.1 == "mode") = [] :=
      List.filter_eq_nil_iff.2 fun f hf => by
        rw [Validator.name_of_mem_toFields hf]
        exact Bool.false_ne_true
    rw [List.filter_append, hnone]
    rfl
  have hrest : (own ++ r.validator.toFields).filter
      (fun f => !(f.1 == "refs" || f.1 == "mode")) = r.validator.toFields := by
    have hall : r.validator.toFields.filter (fun f => !(f.1 == "refs" || f.1 == "mode")) =
        r.validator.toFields :=
      List.filter_eq_self.2 fun f hf => by
        rw [Validator.name_of_mem_toFields hf]
        rfl
    rw [List.filter_append, hall]
    rfl
  -- Each half is then read for itself.
  have hrefs : required? (list? range?) (find? "refs" own) = some r.refs :=
    list?_map fun x hx => range?_ofRange (h x hx)
  have hmode : withDefault? text? "cell" (find? "mode" own) = some r.mode := rfl
  have hvalidator : Validator.ofJson? .shared (.object r.validator.toFields) = some r.validator :=
    Validator.ofJson?_toJson .shared r.validator
  have hplain := r.validator.isPlain_toFields
  show ofJson? form (.object (own ++ r.validator.toFields)) = some r
  simp only [ofJson?, hown, hrest, hplain, hvalidator]
  rw [record?_object (by decide) form]
  · simp [hrefs, hmode]
  · exact .refl _

end

/-! ## Snapshots -/

/-- Can a snapshot be read back? Its numbers are read back as they were, its keys
    are on the grid, its references have a notation, and its font sizes fit
    sixteen bits. -/
structure Snapshot.Legible (d : Snapshot) : Prop where
  numbers : d.toJson.isExact = true
  freeze : d.freeze.Fits
  sizes : ∀ s ∈ d.styles.styles, ∀ f ∈ s.font, ∀ n ∈ f.size, n < UInt16.size
  merges : ∀ r ∈ d.merges.ranges, r.Fits
  rows : ∀ e ∈ d.rows.rows.entries, e.1 < Address.gridLimit ∧
    ∀ f ∈ e.2.cells.entries, f.1 < Address.gridLimit
  cols : ∀ e ∈ d.cols.cols.entries, e.1 < Address.gridLimit
  rules : ∀ r ∈ d.rules, ∀ x ∈ r.refs, x.Fits
  filter : ∀ r ∈ d.filter.range, r.Fits

namespace Snapshot

instance (d : Snapshot) : Decidable d.Legible :=
  decidable_of_iff (d.toJson.isExact = true ∧ d.freeze.Fits ∧
      (∀ s ∈ d.styles.styles, ∀ f ∈ s.font, ∀ n ∈ f.size, n < UInt16.size) ∧
      (∀ r ∈ d.merges.ranges, r.Fits) ∧
      (∀ e ∈ d.rows.rows.entries, e.1 < Address.gridLimit ∧
        ∀ f ∈ e.2.cells.entries, f.1 < Address.gridLimit) ∧
      (∀ e ∈ d.cols.cols.entries, e.1 < Address.gridLimit) ∧
      (∀ r ∈ d.rules, ∀ x ∈ r.refs, x.Fits) ∧ ∀ r ∈ d.filter.range, r.Fits)
    ⟨fun ⟨numbers, freeze, sizes, merges, rows, cols, rules, filter⟩ =>
        ⟨numbers, freeze, sizes, merges, rows, cols, rules, filter⟩,
      fun h => ⟨h.numbers, h.freeze, h.sizes, h.merges, h.rows, h.cols, h.rules, h.filter⟩⟩

theorem ofJson?_toJson (form : Form) {d : Snapshot} (h : d.Legible) :
    ofJson? form d.toJson = some d := by
  have hrules : list? (Rule.ofJson? form) (.array (d.rules.map Rule.toJson)) = some d.rules :=
    list?_map fun r hr => Rule.ofJson?_toJson form (h.rules r hr)
  simp only [ofJson?, toJson]
  rw [record?_object (by decide) form]
  · simp [find?, withDefault?, text?, cell?_ofCell h.freeze, StyleTable.ofJson?_toJson form h.sizes,
      Merges.ofJson?_toJson h.merges, Rows.ofJson?_toJson form h.rows,
      Columns.ofJson?_toJson form h.cols, hrules, AutoFilter.ofJson?_toJson form h.filter]
  · exact .refl _

/-- A legible snapshot survives being written. -/
theorem ofText?_toText {d : Snapshot} (h : d.Legible) : ofText? d.toText = some d := by
  rw [ofText?, toText, parse?_render_of_isExact h.numbers]
  exact ofJson?_toJson .document h

end Snapshot

end Worksheet
