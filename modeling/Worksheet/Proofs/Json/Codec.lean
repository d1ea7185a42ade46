import Worksheet.Proofs.Json.Record

/-!
# Decoding What Was Encoded

Trees that are read back as they were, and records that are read from their own
trees.

Writing a document and reading it back gives the tree that was written as far as
its numbers do: an integer has to fit 64 bits, a double has to have digits that
name it and no other, and for a value without a spelling there is no way back.
That is all that can be lost in a document, and `isExact` says that nothing is.
What is left of a round trip is about trees alone. A record is read field by
field, so for every kind of field there is one lemma, which says that reading the
field gives what was written.

## Main definitions

* `Json.isExact`: Is every number read back as it was written?

## Theorems

* `parse?_render_of_isExact`: An exact tree survives being written.
* `record?_object`: A record whose fields are in order is read whole.
* `optional?_map`, `list?_map`, `indexMap?_ofIndexMap`: Fields that are read back.
-/

namespace Worksheet

namespace Json

/-! ## Exact trees -/

mutual

/-- Is every number of the tree read back as it was written? -/
def isExact : Json → Bool
  | .unreadable => false
  | .int n => -(2 : Int) ^ 63 ≤ n ∧ n < 2 ^ 64
  | .float x => match valueOf (floatChars x) with
    | .float y => y = x
    | _ => false
  | .array items => areExact items
  | .object fields => fieldsAreExact fields
  | _ => true

/-- Is every number of these trees read back as it was written? -/
def areExact : List Json → Bool
  | [] => true
  | j :: js => isExact j && areExact js

/-- Is every number of these fields read back as it was written? -/
def fieldsAreExact : List (String × Json) → Bool
  | [] => true
  | (_, j) :: fs => isExact j && fieldsAreExact fs

end

mutual

/-- An exact tree is read back as it was. -/
theorem reread_of_isExact : ∀ j : Json, j.isExact = true → reread j = j
  | .null, _ => rfl
  | .bool _, _ => rfl
  | .string _, _ => rfl
  | .unreadable, h => by cases h
  | .int n, h => by
    rw [isExact, decide_eq_true_eq] at h
    exact Numeral.value_ofInt h.1 h.2
  | .float x, h => by
    rw [isExact] at h
    rw [reread]
    -- The digits of a double name a double, and it is the one that was written.
    split at h
    · rename_i y hy
      rw [hy, of_decide_eq_true h]
    · cases h
  | .array items, h => by
    rw [isExact] at h
    rw [reread, rereadItems_of_areExact items h]
  | .object fields, h => by
    rw [isExact] at h
    rw [reread, rereadFields_of_fieldsAreExact fields h]

theorem rereadItems_of_areExact : ∀ js : List Json, areExact js = true → rereadItems js = js
  | [], _ => rfl
  | j :: js, h => by
    rw [areExact, Bool.and_eq_true] at h
    rw [rereadItems, reread_of_isExact j h.1, rereadItems_of_areExact js h.2]

theorem rereadFields_of_fieldsAreExact : ∀ fs : List (String × Json),
    fieldsAreExact fs = true → rereadFields fs = fs
  | [], _ => rfl
  | (name, j) :: fs, h => by
    rw [fieldsAreExact, Bool.and_eq_true] at h
    rw [rereadFields, reread_of_isExact j h.1, rereadFields_of_fieldsAreExact fs h.2]

end

/-- An exact tree survives being written. -/
theorem parse?_render_of_isExact {j : Json} (h : j.isExact = true) :
    parse? (render j) = some j := by
  rw [parse?_render, reread_of_isExact j h]

/-! ## Parts of exact trees -/

theorem areExact_eq_all (js : List Json) : areExact js = js.all isExact := by
  induction js with
  | nil => rfl
  | cons j js ih => rw [areExact, ih, List.all_cons]

theorem fieldsAreExact_eq_all (fs : List (String × Json)) :
    fieldsAreExact fs = fs.all fun f => isExact f.2 := by
  induction fs with
  | nil => rfl
  | cons f fs ih => rw [fieldsAreExact, ih, List.all_cons]

@[simp] theorem fieldsAreExact_append (fs gs : List (String × Json)) :
    fieldsAreExact (fs ++ gs) = (fieldsAreExact fs && fieldsAreExact gs) := by
  simp only [fieldsAreExact_eq_all, List.all_append]

theorem fieldsAreExact_fieldIf {α : Type} {write : α → Json} (name : String) {o : Option α}
    (h : ∀ a ∈ o, (write a).isExact = true) :
    fieldsAreExact (fieldIf name (o.map write)) = true := by
  cases o with
  | none => rfl
  | some a => simp [fieldIf, fieldsAreExact, h a rfl]

@[simp] theorem isExact_ofIndex {n : Nat} : (ofIndex n).isExact = true ↔ n < UInt64.size := by
  rw [ofIndex, isExact, decide_eq_true_eq]
  simp only [UInt64.size]
  omega

theorem fieldsAreExact_index {name : String} {o : Option Nat} (h : ∀ n ∈ o, n < UInt64.size) :
    fieldsAreExact (fieldIf name (o.map ofIndex)) = true :=
  fieldsAreExact_fieldIf name fun n hn => isExact_ofIndex.2 (h n hn)

@[simp] theorem fieldsAreExact_text (name : String) (o : Option String) :
    fieldsAreExact (fieldIf name (o.map Json.string)) = true :=
  fieldsAreExact_fieldIf name fun _ _ => rfl

@[simp] theorem fieldsAreExact_word {α : Type} (name : String) (word : α → String)
    (o : Option α) : fieldsAreExact (fieldIf name (o.map fun a => .string (word a))) = true :=
  fieldsAreExact_fieldIf name fun _ _ => rfl

@[simp] theorem fieldsAreExact_bool (name : String) (o : Option Bool) :
    fieldsAreExact (fieldIf name (o.map Json.bool)) = true :=
  fieldsAreExact_fieldIf name fun _ _ => rfl

@[simp] theorem fieldsAreExact_fieldWhen (name : String) (b : Bool) :
    fieldsAreExact (fieldWhen name b) = true := by
  cases b <;> rfl

@[simp] theorem fieldsAreExact_unless (c : Bool) (name : String) (j : Json) :
    fieldsAreExact (if c then [] else [(name, j)]) = (c || isExact j) := by
  cases c <;> simp [fieldsAreExact]

@[simp] theorem isExact_ofCell (c : CellRef) : (ofCell c).isExact = true := rfl

theorem areExact_map {α : Type} {write : α → Json} {as : List α}
    (h : ∀ a ∈ as, (write a).isExact = true) : areExact (as.map write) = true := by
  rw [areExact_eq_all, List.all_map]
  exact List.all_eq_true.2 h

theorem isExact_ofIndexMap {α : Type} {write : α → Json} {m : SparseMap α}
    (h : ∀ e ∈ m.entries, (write e.2).isExact = true) : (ofIndexMap write m).isExact = true := by
  rw [ofIndexMap, isExact, fieldsAreExact_eq_all, List.all_map]
  exact List.all_eq_true.2 h

/-- A double that is read back as it was is exact. -/
theorem isExact_float {x : Float} (h : reread (.float x) = .float x) :
    (Json.float x).isExact = true := by
  rw [reread] at h
  rw [isExact, h]
  exact decide_eq_true rfl

/-! ## Records -/

theorem names_fieldIf (name : String) (j : Option Json) :
    ((fieldIf name j).map Prod.fst).Sublist [name] := by
  cases j <;> simp [fieldIf]

theorem names_fieldWhen (name : String) (b : Bool) :
    ((fieldWhen name b).map Prod.fst).Sublist [name] := by
  cases b <;> simp [fieldWhen]

theorem names_unless (c : Bool) (name : String) (j : Json) :
    ((if c then [] else [(name, j)]).map Prod.fst).Sublist [name] := by
  cases c <;> simp

theorem find?_unless (name n : String) (c : Bool) (j : Json) :
    find? name (if c then [] else [(n, j)]) = if n = name ∧ c = false then some j else none := by
  cases c <;> simp [find?]

/-- A record whose fields are among those it knows, in their order, is read whole. -/
theorem record?_object {names : List String} (hnames : names.Nodup) (form : Form)
    {fields : List (String × Json)} (h : (fields.map Prod.fst).Sublist names) :
    record? form names (.object fields) = some fields := by
  have hknown : fields.filter (fun f => names.contains f.1) = fields := by
    refine List.filter_eq_self.2 fun f hf => ?_
    rw [List.contains_iff_mem]
    exact h.subset (List.mem_map_of_mem hf)
  -- Nothing is left out, and no name comes twice.
  simp only [record?, hknown, if_pos (hnames.sublist h)]

section

variable {α : Type} {read : Json → Option α} {write : α → Json}

/-- A field that may be absent is read back, unless `null` would be read as well. -/
theorem optional?_map (hnull : read .null = none) {o : Option α}
    (h : ∀ a ∈ o, read (write a) = some a) : optional? read (o.map write) = some o := by
  cases o with
  | none => rfl
  | some a =>
    have ha := h a rfl
    simp only [Option.map_some, optional?]
    -- A value that is written as null would be taken for none.
    split
    · rename_i heq
      cases heq
    · rename_i heq
      rw [Option.some.inj heq, hnull] at ha
      cases ha
    · rename_i heq
      rw [← Option.some.inj heq, ha]
      rfl

theorem mapM_map {β : Type} {read : β → Option α} {write : α → β} {as : List α}
    (h : ∀ a ∈ as, read (write a) = some a) : (as.map write).mapM read = some as := by
  induction as with
  | nil => rfl
  | cons a as ih =>
    rw [List.map_cons, List.mapM_cons, h a List.mem_cons_self,
      ih fun b hb => h b (List.mem_cons_of_mem _ hb)]
    rfl

theorem list?_map {as : List α} (h : ∀ a ∈ as, read (write a) = some a) :
    list? read (.array (as.map write)) = some as :=
  mapM_map h

/-- A map is read back if its keys are on the grid. -/
theorem indexMap?_ofIndexMap {m : SparseMap α}
    (h : ∀ e ∈ m.entries, e.1 < Address.gridLimit ∧ read (write e.2) = some e.2) :
    indexMap? read (ofIndexMap write m) = some m := by
  -- The entries are read back one by one, and they are in order already.
  rw [ofIndexMap, indexMap?, mapM_map fun e he => ?_, Option.map_some, SparseMap.ofList_entries]
  obtain ⟨hkey, hread⟩ := h e he
  simp only [indexName?_toString, if_pos hkey, hread]

end

/-! ## Fields -/

@[simp] theorem index?_ofIndex (n : Nat) : index? (ofIndex n) = some n := by
  simp [index?, ofIndex]

theorem indexPair?_array (a b : Nat) :
    indexPair? (.array [ofIndex a, ofIndex b]) = some (a, b) := by
  simp only [indexPair?, index?_ofIndex]

theorem short?_ofIndex {n : Nat} (h : n < UInt16.size) : short? (ofIndex n) = some n := by
  simp only [short?, ofIndex]
  rw [if_pos (by omega), Int.toNat_natCast]

theorem cell?_ofCell {c : CellRef} (h : c.Fits) : cell? (ofCell c) = some c := by
  simp only [cell?, ofCell, CellRef.ofText?, CellRef.toText, String.toList_ofList]
  exact CellRef.ofChars?_toChars h.1 h.2

theorem range?_ofRange {r : Range} (h : r.Fits) : range? (ofRange r) = some r :=
  Range.ofText?_toText h

@[simp] theorem optional?_text (o : Option String) : optional? text? (o.map .string) = some o :=
  optional?_map rfl fun _ _ => rfl

@[simp] theorem optional?_bool (o : Option Bool) : optional? bool? (o.map .bool) = some o :=
  optional?_map rfl fun _ _ => rfl

@[simp] theorem optional?_float (o : Option Float) : optional? float? (o.map .float) = some o :=
  optional?_map rfl fun _ _ => rfl

@[simp] theorem optional?_index (o : Option Nat) : optional? index? (o.map ofIndex) = some o :=
  optional?_map rfl fun n _ => index?_ofIndex n

end Json

end Worksheet
