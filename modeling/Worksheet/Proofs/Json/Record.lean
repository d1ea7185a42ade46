import Worksheet.Proofs.Address.Notation
import Worksheet.Proofs.Json.Tree
import Worksheet.Proofs.SparseMap

/-!
# Reading Records Back

What is found in a record that was written and read back.

Reading a record keeps the fields it knows, so a known field is found in the
record exactly when it is found in the object, and the object that is read
back has the fields of the one that was written. A map is written under the
names of its keys; a name spells one key, so what is read back has the same keys,
with what is read from the values that were written under them.

A document with an index past the 64-bit range, or a key off the grid, is not
read at all. The lemmas are therefore about what is read, if something is.

## Theorems

* `find?_of_record?`: A known field of a record is the field of the object.
* `get?_indexMap?`: What a map that is read back holds.
* `optional?_reread`, `list?_reread`: An optional field and a list that are read back.
* `indexPair?_reread`: Two indices that are read back.
-/

namespace Worksheet

namespace Json

theorem find?_append (name : String) (fs gs : List (String × Json)) :
    find? name (fs ++ gs) = (find? name fs).or (find? name gs) := by
  induction fs with
  | nil => simp [find?]
  | cons f fs ih =>
    rw [List.cons_append, find?, find?]
    split <;> simp_all

theorem find?_fieldIf (name n : String) (j : Option Json) :
    find? name (fieldIf n j) = if n = name then j else none := by
  cases j <;> simp [fieldIf, find?]

theorem find?_fieldWhen (name n : String) (b : Bool) :
    find? name (fieldWhen n b) = if n = name ∧ b then some (.bool true) else none := by
  cases b <;> simp [fieldWhen, find?]

theorem find?_rereadFields (name : String) (fs : List (String × Json)) :
    find? name (rereadFields fs) = (find? name fs).map reread := by
  induction fs with
  | nil => rfl
  | cons f fs ih =>
    rw [rereadFields, find?, find?]
    split <;> simp_all

/-- A known field of a record is the field of the object. -/
theorem find?_of_record? {form : Form} {names : List String} {fields known : List (String × Json)}
    (h : record? form names (.object fields) = some known) {name : String} (hname : name ∈ names) :
    find? name known = find? name fields := by
  simp only [record?] at h
  split at h
  · cases h
    induction fields with
    | nil => rfl
    | cons f fs ih =>
      have ih := ih (by
        rename_i hnodup
        exact hnodup.sublist (((List.sublist_cons_self f fs).filter _).map _))
      by_cases hf : f.1 = name
      · rw [List.filter_cons_of_pos (by simpa [hf] using hname), find?, find?, if_pos hf, if_pos hf]
      · rw [find?, if_neg hf, ← ih, List.filter_cons]
        split
        · rw [find?, if_neg hf]
        · rfl
  · cases h

/-- What is read from a list, item by item. -/
theorem forall₂_of_mapM {α β : Type} {f : α → Option β} {as : List α} {bs : List β}
    (h : as.mapM f = some bs) : List.Forall₂ (fun a b => f a = some b) as bs := by
  induction as generalizing bs with
  | nil =>
    cases h
    exact .nil
  | cons a as ih =>
    simp only [List.mapM_cons, Option.bind_eq_bind, Option.bind_eq_some_iff, Option.pure_def,
      Option.some.injEq] at h
    obtain ⟨b, hb, bs', hbs', rfl⟩ := h
    exact .cons hb (ih hbs')

/-- A list that is read back is the one that was written, if its items are. -/
theorem list?_reread {α : Type} {read : Json → Option α} {write : α → Json} {as as' : List α}
    (h : list? read (reread (.array (as.map write))) = some as')
    (hread : ∀ a ∈ as, ∀ a', read (reread (write a)) = some a' → a' = a) : as' = as := by
  rw [reread, rereadItems_eq, List.map_map, list?] at h
  have hitems := List.forall₂_map_left_iff.1 (forall₂_of_mapM h)
  clear h
  induction hitems with
  | nil => rfl
  | @cons a a' as as' ha _ ih =>
    obtain ⟨hfirst, hrest⟩ := List.forall_mem_cons.1 hread
    rw [hfirst a' ha, ih hrest]

/-- The name of an index spells it. -/
theorem indexName?_toString (n : Nat) :
    indexName? (toString n) = if n < Address.gridLimit then some n else none := by
  have hchars : (toString n).toList = Nat.toDigits 10 n := by
    rw [Nat.toString_eq_ofList_toDigits, String.toList_ofList]
  have hdigits : (Nat.toDigits 10 n).all Text.isDigit = true :=
    List.all_eq_true.2 (isDigits_toDigits n).2
  have hzero : (Nat.toDigits 10 n).head? = some '0' → Nat.toDigits 10 n = ['0'] := by
    intro h
    by_cases hn : n = 0
    · rw [hn, Nat.toDigits_zero]
    · exact absurd h (head?_toDigits hn)
  simp only [indexName?, hchars, Nat.ofDigitChars_ten_toDigits, hdigits, ne_eq,
    Nat.toDigits_ne_nil, not_false_eq_true, true_and]
  by_cases hn : n < Address.gridLimit
  · rw [if_pos ⟨hzero, hn⟩, if_pos hn]
  · rw [if_neg fun h => hn h.2, if_neg hn]

/-- A map that is read back has the keys of the map that was written, and at every
    key what is read from the value that was written there. -/
theorem get?_indexMap? {α β : Type} {read : Json → Option β} {write : α → Json}
    {m : SparseMap α} {m' : SparseMap β}
    (h : indexMap? read (reread (ofIndexMap write m)) = some m') (k : Nat) :
    Option.Rel (fun v v' => read (reread (write v)) = some v') (m.get? k) (m'.get? k) := by
  rw [ofIndexMap, reread, rereadFields_eq, indexMap?, Option.map_eq_some_iff, List.map_map] at h
  obtain ⟨es, hes, rfl⟩ := h
  have hentries : List.Forall₂ (fun (e : Nat × α) (e' : Nat × β) =>
      e'.1 = e.1 ∧ read (reread (write e.2)) = some e'.2) m.entries es := by
    refine (List.forall₂_map_left_iff.1 (forall₂_of_mapM hes)).imp fun e e' hread => ?_
    simp only [Function.comp_apply, indexName?_toString] at hread
    split at hread
    · rename_i k' v' hk hv'
      cases hread
      split at hk
      · cases hk
        exact ⟨rfl, hv'⟩
      · cases hk
    · cases hread
  -- The keys are in order, so no entry is lost when they are put in.
  have hsorted := SparseMap.sorted_of_forall₂ (hentries.imp fun _ _ he => he.1) m.sorted
  rw [SparseMap.get?, SparseMap.get?, SparseMap.entries_ofList hsorted]
  exact SparseMap.lookup_of_forall₂ (P := fun v v' => read (reread (write v)) = some v') hentries k

/-- An index that is read back is the one that was written. -/
theorem index?_reread {n n' : Nat} (h : index? (reread (ofIndex n)) = some n') : n' = n := by
  rw [ofIndex, reread, index?_value_ofInt] at h
  split at h
  · exact (Option.some.inj h).symm
  · cases h

/-- A number of sixteen bits that is read back is the one that was written. -/
theorem short?_reread {n n' : Nat} (h : short? (reread (ofIndex n)) = some n') :
    n' = n ∧ n < UInt16.size := by
  -- Such a number is an index, and a small one.
  have hindex : index? (reread (ofIndex n)) = some n' ∧ n' < UInt16.size := by
    unfold short? at h
    split at h
    · rename_i i hi
      split at h
      · cases h
        rw [hi, index?, if_pos (by omega)]
        exact ⟨rfl, by omega⟩
      · cases h
    · cases h
  have heq := index?_reread hindex.1
  exact ⟨heq, heq ▸ hindex.2⟩

/-- A number is not read back as `null`. -/
theorem reread_ofIndex_ne_null (n : Nat) : reread (ofIndex n) ≠ .null := by
  simp only [ofIndex, reread, Numeral.value, ofNumber, withSign]
  repeat' split
  all_goals exact Json.noConfusion

/-- What is not `null` is read as a value. -/
theorem read_of_optional? {α : Type} {read : Json → Option α} {j : Json} {o : Option α}
    (h : optional? read (some j) = some o) (hj : j ≠ .null) :
    ∃ a, read j = some a ∧ o = some a := by
  rw [optional?] at h
  · obtain ⟨a, ha, rfl⟩ := Option.map_eq_some_iff.1 h
    exact ⟨a, ha, rfl⟩
  · exact hj

/-- An optional field that is read back is the one that was written, if no value is
    read back as `null`. -/
theorem optional?_reread {α : Type} {read : Json → Option α} {write : α → Json} {o o' : Option α}
    (h : optional? read (o.map (reread ∘ write)) = some o') (hnull : ∀ a, reread (write a) ≠ .null)
    (hread : ∀ a a', read (reread (write a)) = some a' → a' = a) : o' = o := by
  cases o with
  | none =>
    cases h
    rfl
  | some a =>
    obtain ⟨a', ha', rfl⟩ := read_of_optional? h (hnull a)
    rw [hread a a' ha']

theorem optional?_text_reread {o o' : Option String}
    (h : optional? text? (o.map (reread ∘ .string)) = some o') : o' = o :=
  optional?_reread h nofun fun _ _ ha => (Option.some.inj ha).symm

theorem optional?_index_reread {o o' : Option Nat}
    (h : optional? index? (o.map (reread ∘ ofIndex)) = some o') : o' = o :=
  optional?_reread h reread_ofIndex_ne_null fun _ _ => index?_reread

/-- Two indices that are read back are the ones that were written. -/
theorem indexPair?_reread {a b a' b' : Nat}
    (h : indexPair? (reread (.array [ofIndex a, ofIndex b])) = some (a', b')) :
    a' = a ∧ b' = b := by
  simp only [ofIndex, reread, rereadItems, indexPair?, index?_value_ofInt] at h
  split at h
  · rename_i x y hx hy
    cases h
    split at hx <;> split at hy <;> simp_all
  · cases h

end Json

end Worksheet
