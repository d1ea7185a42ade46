import Mathlib.Data.List.Forall2
import Worksheet.SparseMap

/-!
# Reading Relabelled Maps

What a sparse map answers after its keys were moved or its values changed.

A map answers with exactly its entries, so each of these is a statement about
the entries of the new list. Moving keys is strictly increasing on those that
stay, which is why an entry that is found under a moved key is the one that
was there before.

## Theorems

* `get?_mapValues`: Values changed with their keys in place.
* `get?_shiftUp`: Keys moved up from an index on.
* `get?_removeSpan`: Keys moved down over a span that was dropped.
* `exists_of_get?_shiftUp`, `exists_of_get?_removeSpan`: Nothing else is found then.
* `removeSpan_shiftUp`: Moving keys up and dropping the gap again.
* `get?_modify`: One value changed.
* `entries_ofList`, `ofList_entries`: A map is made of entries in order.
* `lookup_of_forall₂`: Entries with the same keys, side by side.
-/

namespace Worksheet

namespace SparseMap

variable {α β : Type}

theorem eq_of_entries {m m' : SparseMap α} (h : m.entries = m'.entries) : m = m' := by
  cases m
  cases m'
  cases h
  rfl

/-- Two maps agree on two keys if they have the same values there. -/
theorem get?_eq_get? {m m' : SparseMap α} {k k' : Nat}
    (h : ∀ v, (k', v) ∈ m'.entries ↔ (k, v) ∈ m.entries) : m'.get? k' = m.get? k := by
  apply Option.ext
  intro v
  rw [get?_eq_some_iff, get?_eq_some_iff]
  exact h v

/-- Changing values changes the answer and nothing else. -/
theorem get?_mapValues (f : Nat → α → β) (m : SparseMap α) (k : Nat) :
    (m.mapValues f).get? k = (m.get? k).map (f k) := by
  apply Option.ext
  intro v
  rw [get?_eq_some_iff, Option.map_eq_some_iff]
  simp only [mapValues, List.mem_map, Prod.mk.injEq]
  constructor
  · rintro ⟨e, he, rfl, rfl⟩
    exact ⟨e.2, get?_eq_some_iff.2 he, rfl⟩
  · rintro ⟨w, hw, rfl⟩
    exact ⟨(k, w), get?_eq_some_iff.1 hw, rfl, rfl⟩

/-- After keys were moved up, a value is under its moved key. -/
theorem get?_shiftUp (m : SparseMap α) (start n k : Nat) :
    (m.shiftUp start n).get? (if start ≤ k then k + n else k) = m.get? k := by
  refine get?_eq_get? fun v => ?_
  simp only [shiftUp, List.mem_map, Prod.mk.injEq]
  constructor
  · rintro ⟨e, he, hkey, rfl⟩
    -- Moving up keeps keys apart, so the entry that is found is the one under the old key.
    have hk : e.1 = k := by
      split at hkey <;> split at hkey <;> omega
    rw [← hk]
    exact he
  · intro h
    exact ⟨(k, v), h, rfl, rfl⟩

/-- After a span was dropped and the gap closed, a value outside the span is
    under its moved key. -/
theorem get?_removeSpan (m : SparseMap α) {first last k : Nat} (hspan : first ≤ last)
    (hk : k < first ∨ last < k) :
    (m.removeSpan first last).get? (if last < k then k - (last + 1 - first) else k) = m.get? k := by
  refine get?_eq_get? fun v => ?_
  simp only [removeSpan, eraseBetween, List.mem_map, List.mem_filter, Bool.or_eq_true,
    decide_eq_true_eq, Prod.mk.injEq]
  constructor
  · rintro ⟨e, ⟨he, hout⟩, hkey, rfl⟩
    have hk : e.1 = k := by
      split at hkey <;> split at hkey <;> omega
    rw [← hk]
    exact he
  · intro h
    exact ⟨(k, v), ⟨h, hk⟩, rfl, rfl⟩

/-- What is found after keys were moved up was there before. -/
theorem exists_of_get?_shiftUp {m : SparseMap α} {start n k' : Nat} {v : α}
    (h : (m.shiftUp start n).get? k' = some v) :
    ∃ k, (if start ≤ k then k + n else k) = k' ∧ m.get? k = some v := by
  rw [get?_eq_some_iff] at h
  obtain ⟨e, he, heq⟩ := List.mem_map.1 h
  rw [Prod.mk.injEq] at heq
  exact ⟨e.1, heq.1, get?_eq_some_iff.2 (heq.2 ▸ he)⟩

/-- What is found after a span was dropped was there before, outside of it. -/
theorem exists_of_get?_removeSpan {m : SparseMap α} {first last k' : Nat} {v : α}
    (h : (m.removeSpan first last).get? k' = some v) :
    ∃ k, (k < first ∨ last < k) ∧ (if last < k then k - (last + 1 - first) else k) = k' ∧
      m.get? k = some v := by
  rw [get?_eq_some_iff] at h
  obtain ⟨e, he, heq⟩ := List.mem_map.1 h
  obtain ⟨he, hout⟩ := List.mem_filter.1 he
  rw [Prod.mk.injEq] at heq
  simp only [Bool.or_eq_true, decide_eq_true_eq] at hout
  exact ⟨e.1, hout, heq.1, get?_eq_some_iff.2 (heq.2 ▸ he)⟩

/-- Moving keys up leaves a gap, and dropping the gap moves them back. -/
theorem removeSpan_shiftUp (m : SparseMap α) (start : Nat) {n : Nat} (hn : 0 < n) :
    (m.shiftUp start n).removeSpan start (start + n - 1) = m := by
  refine ext_get? fun k => ?_
  have hspan : start ≤ start + n - 1 := by omega
  have hup := get?_shiftUp m start n k
  rw [← hup]
  by_cases hk : start ≤ k
  · rw [if_pos hk]
    have hdown := get?_removeSpan (m.shiftUp start n) hspan (k := k + n) (.inr (by omega))
    rw [if_pos (by omega)] at hdown
    rw [← hdown]
    congr 1
    omega
  · rw [if_neg hk]
    have hdown := get?_removeSpan (m.shiftUp start n) hspan (k := k) (.inl (by omega))
    rwa [if_neg (by omega)] at hdown

theorem mapValues_shiftUp (g : α → β) (m : SparseMap α) (start n : Nat) :
    (m.shiftUp start n).mapValues (fun _ => g) = (m.mapValues fun _ => g).shiftUp start n :=
  eq_of_entries (by simp only [mapValues, shiftUp, List.map_map]; rfl)

theorem mapValues_removeSpan (g : α → β) (m : SparseMap α) (first last : Nat) :
    (m.removeSpan first last).mapValues (fun _ => g) =
      (m.mapValues fun _ => g).removeSpan first last := by
  refine eq_of_entries ?_
  simp only [mapValues, removeSpan, eraseBetween, List.map_map, List.filter_map]
  rfl

theorem get?_modify (m : SparseMap α) (k k' : Nat) (f : α → α) :
    (m.modify k f).get? k' = if k' = k then (m.get? k).map f else m.get? k' := by
  unfold modify
  split
  · rename_i v hv
    rw [get?_insert, hv]
    rfl
  · rename_i hv
    split
    · rename_i hk
      rw [hk, hv]
      rfl
    · rfl

/-- An entry past all others is put last. -/
theorem insertEntry_append {es : List (Nat × α)} {k : Nat} (v : α) (h : ∀ e ∈ es, e.1 < k) :
    insertEntry k v es = es ++ [(k, v)] := by
  induction es with
  | nil => rfl
  | cons e es ih =>
    have hlt := h e List.mem_cons_self
    rw [insertEntry, if_neg (by omega), if_neg (by omega),
      ih fun f hf => h f (List.mem_cons_of_mem _ hf), List.cons_append]

/-- Entries in order and past all others are put in one behind the other. -/
theorem entries_foldl_insert {es : List (Nat × α)} {m : SparseMap α}
    (h : (m.entries ++ es).Pairwise fun a b => a.1 < b.1) :
    (es.foldl (fun m e => m.insert e.1 e.2) m).entries = m.entries ++ es := by
  induction es generalizing m with
  | nil => exact (List.append_nil _).symm
  | cons e es ih =>
    have hinsert : (m.insert e.1 e.2).entries = m.entries ++ [e] :=
      insertEntry_append e.2 fun f hf =>
        (List.pairwise_append.1 h).2.2 f hf e List.mem_cons_self
    rw [List.foldl_cons, ih (by rwa [hinsert, List.append_assoc]), hinsert, List.append_assoc]
    rfl

/-- Entries in order are the entries of the map that they are put into. -/
theorem entries_ofList {es : List (Nat × α)} (h : es.Pairwise fun a b => a.1 < b.1) :
    (ofList es).entries = es :=
  entries_foldl_insert (m := .empty) h

/-- Putting in the entries of a map in order makes the map. -/
theorem ofList_entries (m : SparseMap α) : ofList m.entries = m :=
  eq_of_entries (entries_ofList m.sorted)

/-! ## Entries side by side -/

section

variable {P : α → β → Prop} {es : List (Nat × α)} {es' : List (Nat × β)}

/-- Entries with the same keys are in the same order. -/
theorem sorted_of_forall₂ (h : List.Forall₂ (fun e e' => e'.1 = e.1) es es')
    (hs : es.Pairwise fun a b => a.1 < b.1) : es'.Pairwise fun a b => a.1 < b.1 := by
  have hkeys : es'.map Prod.fst = es.map Prod.fst := by
    clear hs
    induction h with
    | nil => rfl
    | cons he _ ih => rw [List.map_cons, List.map_cons, he, ih]
  have hpairs := List.pairwise_map.2 hs
  rw [← hkeys] at hpairs
  exact List.pairwise_map.1 hpairs

/-- Entries with the same keys answer the same keys. -/
theorem lookup_of_forall₂ (h : List.Forall₂ (fun e e' => e'.1 = e.1 ∧ P e.2 e'.2) es es')
    (k : Nat) :
    Option.Rel P (lookup k es) (lookup k es') := by
  induction h with
  | nil => exact .none
  | cons he _ ih =>
    rw [lookup, lookup, he.1]
    split
    · exact .some he.2
    · split
      · exact .none
      · exact ih

end

end SparseMap

end Worksheet
