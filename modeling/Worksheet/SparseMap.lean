/-!
# Sparse Maps

Maps from indices to values that hold few of the possible indices.

A sheet has many rows and columns of which few are ever touched, so the
stores keep entries only for those. The entries are a list in increasing key
order, and the order is part of the type: a map then has one representation,
two maps that answer alike are equal, and walking a map always visits its
keys in order.

Inserting lines into a sheet moves the keys at and past the edit up, and
deleting lines drops the keys of the span and closes the gap. Both relabel
keys by a strictly increasing function, so no two entries can meet.

## Main definitions

* `SparseMap`: The map.
* `get?`, `insert`, `erase`, `update`, `modify`: One entry.
* `mapValues`, `entriesBetween`, `last?`: All entries.
* `shiftUp`, `removeSpan`: Relabelling the keys.

## Theorems

* `get?_insert`, `get?_erase`, `get?_update`: One entry changes and the others stay.
* `ext_get?`: Maps that answer alike are equal.
-/

namespace Worksheet

/-- A map from indices to values, as its entries in increasing key order. -/
structure SparseMap (α : Type) where
  entries : List (Nat × α)
  sorted : entries.Pairwise fun a b => a.1 < b.1

namespace SparseMap

variable {α β : Type}

instance [DecidableEq α] : DecidableEq (SparseMap α) := fun a b =>
  if h : a.entries = b.entries then
    .isTrue (by cases a; cases b; simp_all)
  else
    .isFalse fun he => h (by rw [he])

/-- The map without entries. -/
def empty : SparseMap α := ⟨[], .nil⟩

instance : Inhabited (SparseMap α) := ⟨empty⟩

/-- Has the map no entries? -/
def isEmpty (m : SparseMap α) : Bool := m.entries.isEmpty

/-- The value stored under a key in a list of entries. -/
def lookup (k : Nat) : List (Nat × α) → Option α
  | [] => none
  | (k', v) :: es => if k = k' then some v else if k < k' then none else lookup k es

/-- The value stored under a key. -/
def get? (m : SparseMap α) (k : Nat) : Option α := lookup k m.entries

/-- Is there an entry for the key? -/
def contains (m : SparseMap α) (k : Nat) : Bool := (m.get? k).isSome

/-- Put an entry at its place in a list of entries, over an old one. -/
def insertEntry (k : Nat) (v : α) : List (Nat × α) → List (Nat × α)
  | [] => [(k, v)]
  | (k', v') :: es =>
    if k < k' then (k, v) :: (k', v') :: es
    else if k = k' then (k, v) :: es
    else (k', v') :: insertEntry k v es

/-- An entry of the new list is the one put there or an old one. -/
theorem mem_insertEntry {k : Nat} {v : α} {e : Nat × α} {es : List (Nat × α)}
    (h : e ∈ insertEntry k v es) : e = (k, v) ∨ e ∈ es := by
  induction es with
  | nil => simpa [insertEntry] using h
  | cons hd tl ih =>
    obtain ⟨k', v'⟩ := hd
    rw [insertEntry] at h
    split at h
    · simp only [List.mem_cons] at h ⊢
      exact h
    · split at h <;> simp only [List.mem_cons] at h ⊢
      · exact h.imp_right .inr
      · rcases h with h | h
        · exact .inr (.inl h)
        · exact (ih h).imp_right .inr

/-- Putting an entry at its place keeps the keys in increasing order. -/
theorem sorted_insertEntry (k : Nat) (v : α) {es : List (Nat × α)}
    (h : es.Pairwise fun a b => a.1 < b.1) :
    (insertEntry k v es).Pairwise fun a b => a.1 < b.1 := by
  induction es with
  | nil => simp [insertEntry]
  | cons hd tl ih =>
    obtain ⟨k', v'⟩ := hd
    rw [List.pairwise_cons] at h
    rw [insertEntry]
    split
    · rename_i hk
      refine List.pairwise_cons.2 ⟨fun e he => ?_, List.pairwise_cons.2 h⟩
      rcases List.mem_cons.1 he with rfl | he
      · exact hk
      · exact Nat.lt_trans hk (h.1 e he)
    · split
      · rename_i hk
        subst hk
        exact List.pairwise_cons.2 h
      · refine List.pairwise_cons.2 ⟨fun e he => ?_, ih h.2⟩
        rcases mem_insertEntry he with rfl | he
        · simp only
          omega
        · exact h.1 e he

/-- Store a value under a key, over an old one. -/
def insert (m : SparseMap α) (k : Nat) (v : α) : SparseMap α :=
  ⟨insertEntry k v m.entries, sorted_insertEntry k v m.sorted⟩

/-- Drop the entry of a key. -/
def erase (m : SparseMap α) (k : Nat) : SparseMap α :=
  ⟨m.entries.filter fun e => e.1 != k, m.sorted.filter _⟩

/-- Store what `f` makes of the value under a key, present or not. -/
def update (m : SparseMap α) (k : Nat) (f : Option α → α) : SparseMap α :=
  m.insert k (f (m.get? k))

/-- Change the value under a key, if there is one. -/
def modify (m : SparseMap α) (k : Nat) (f : α → α) : SparseMap α :=
  match m.get? k with
  | some v => m.insert k (f v)
  | none => m

/-- The map with these entries; of two entries for one key the later wins. -/
def ofList (es : List (Nat × α)) : SparseMap α :=
  es.foldl (fun m e => m.insert e.1 e.2) empty

/-- The entries, in increasing key order. -/
def toList (m : SparseMap α) : List (Nat × α) := m.entries

/-- The entries with a key from `lo` to `hi`, ends included. -/
def entriesBetween (m : SparseMap α) (lo hi : Nat) : List (Nat × α) :=
  m.entries.filter fun e => lo ≤ e.1 && e.1 ≤ hi

/-- The entry with the greatest key. -/
def last? (m : SparseMap α) : Option (Nat × α) := m.entries.getLast?

/-- Change every value, knowing its key. -/
def mapValues (f : Nat → α → β) (m : SparseMap α) : SparseMap β :=
  ⟨m.entries.map fun e => (e.1, f e.1 e.2), m.sorted.map _ fun _ _ h => h⟩

/-- Keep the entries whose key is outside `lo` to `hi`. -/
def eraseBetween (m : SparseMap α) (lo hi : Nat) : SparseMap α :=
  ⟨m.entries.filter fun e => e.1 < lo || hi < e.1, m.sorted.filter _⟩

/-- Move every key from `start` on up by `n`. -/
def shiftUp (m : SparseMap α) (start n : Nat) : SparseMap α :=
  ⟨m.entries.map fun e => (if start ≤ e.1 then e.1 + n else e.1, e.2),
    m.sorted.map _ fun a b h => by
      simp only
      split <;> split <;> omega⟩

/-- Drop the keys from `first` to `last` and move the later ones down to
    close the gap. -/
def removeSpan (m : SparseMap α) (first last : Nat) : SparseMap α :=
  ⟨(m.eraseBetween first last).entries.map fun e =>
      (if last < e.1 then e.1 - (last + 1 - first) else e.1, e.2),
    (List.pairwise_map).2 <| (m.eraseBetween first last).sorted.imp_of_mem fun {a b} ha hb h => by
      have ha := (List.mem_filter.1 ha).2
      have hb := (List.mem_filter.1 hb).2
      simp only [Bool.or_eq_true, decide_eq_true_eq] at ha hb
      simp only
      split <;> split <;> omega⟩

/-- Looking up after an entry was put in finds it under its own key, and under
    any other key what was there. -/
theorem lookup_insertEntry (k k' : Nat) (v : α) (es : List (Nat × α)) :
    lookup k' (insertEntry k v es) = if k' = k then some v else lookup k' es := by
  induction es with
  | nil => simp [insertEntry, lookup]
  | cons hd tl ih =>
    obtain ⟨k₁, v₁⟩ := hd
    grind [insertEntry, lookup]

/-- Storing a value changes the answer for its key alone. -/
theorem get?_insert (m : SparseMap α) (k k' : Nat) (v : α) :
    (m.insert k v).get? k' = if k' = k then some v else m.get? k' :=
  lookup_insertEntry k k' v m.entries

/-- Updating a key changes the answer for it alone. -/
theorem get?_update (m : SparseMap α) (k k' : Nat) (f : Option α → α) :
    (m.update k f).get? k' = if k' = k then some (f (m.get? k)) else m.get? k' :=
  get?_insert m k k' _

/-- In increasing key order, looking up finds exactly the entries of the list. -/
theorem lookup_eq_some_iff {k : Nat} {v : α} {es : List (Nat × α)}
    (h : es.Pairwise fun a b => a.1 < b.1) : lookup k es = some v ↔ (k, v) ∈ es := by
  induction es with
  | nil => simp [lookup]
  | cons hd tl ih =>
    obtain ⟨k', v'⟩ := hd
    rw [List.pairwise_cons] at h
    have ih := ih h.2
    simp only [lookup, List.mem_cons, Prod.mk.injEq]
    split
    · rename_i hk
      subst hk
      constructor
      · intro hv
        exact .inl ⟨rfl, (Option.some.inj hv).symm⟩
      · rintro (⟨-, rfl⟩ | hm)
        · rfl
        · exact absurd (h.1 _ hm) (Nat.lt_irrefl _)
    · rename_i hk
      split
      · rename_i hlt
        constructor
        · intro hv
          cases hv
        · rintro (⟨rfl, -⟩ | hm)
          · exact absurd rfl hk
          · exact absurd (h.1 _ hm) (Nat.lt_asymm hlt)
      · rw [ih]
        constructor
        · exact .inr
        · rintro (⟨rfl, -⟩ | hm)
          · exact absurd rfl hk
          · exact hm

/-- The map answers with exactly its entries. -/
theorem get?_eq_some_iff {m : SparseMap α} {k : Nat} {v : α} :
    m.get? k = some v ↔ (k, v) ∈ m.entries :=
  lookup_eq_some_iff m.sorted

/-- Dropping a key changes the answer for it alone. -/
theorem get?_erase (m : SparseMap α) (k k' : Nat) :
    (m.erase k).get? k' = if k' = k then none else m.get? k' := by
  apply Option.ext
  intro v
  rw [get?_eq_some_iff]
  simp only [erase, List.mem_filter, bne_iff_ne, ne_eq]
  split
  · simp_all
  · rw [get?_eq_some_iff]
    simp_all

/-- Maps that answer alike are equal, because the order of the entries leaves
    only one list for any set of them. -/
theorem ext_get? {m m' : SparseMap α} (h : ∀ k, m.get? k = m'.get? k) : m = m' := by
  have hmem : ∀ e, e ∈ m.entries ↔ e ∈ m'.entries := fun e => by
    rw [← get?_eq_some_iff (m := m), ← get?_eq_some_iff (m := m'), h]
  obtain ⟨es, hs⟩ := m
  obtain ⟨es', hs'⟩ := m'
  congr
  simp only at hmem
  clear h
  -- Two lists in increasing order with the same members start alike.
  induction es generalizing es' with
  | nil =>
    cases es' with
    | nil => rfl
    | cons e tl => exact absurd ((hmem e).2 List.mem_cons_self) List.not_mem_nil
  | cons e tl ih =>
    cases es' with
    | nil => exact absurd ((hmem e).1 List.mem_cons_self) List.not_mem_nil
    | cons e' tl' =>
      rw [List.pairwise_cons] at hs hs'
      have he : e = e' := by
        rcases List.mem_cons.1 ((hmem e).1 List.mem_cons_self) with he | he
        · exact he
        · rcases List.mem_cons.1 ((hmem e').2 List.mem_cons_self) with he' | he'
          · exact he'.symm
          · exact absurd (hs.1 _ he') (Nat.lt_asymm (hs'.1 _ he))
      subst he
      congr 1
      refine ih hs.2 tl' hs'.2 fun x => ?_
      constructor
      · intro hx
        rcases List.mem_cons.1 ((hmem x).1 (List.mem_cons_of_mem _ hx)) with rfl | hx'
        · exact absurd (hs.1 _ hx) (Nat.lt_irrefl _)
        · exact hx'
      · intro hx
        rcases List.mem_cons.1 ((hmem x).2 (List.mem_cons_of_mem _ hx)) with rfl | hx'
        · exact absurd (hs'.1 _ hx) (Nat.lt_irrefl _)
        · exact hx'

end SparseMap

end Worksheet
