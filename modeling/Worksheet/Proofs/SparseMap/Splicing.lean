import Mathlib.Data.Set.Function
import Worksheet.Proofs.SparseMap

/-!
# Lines Opened and Closed in a Map

What inserting and deleting lines makes of the entries of a sparse map.

Keys are moved in one pass over the entries, which works because the order of
the keys is kept. An ordered tree is edited in another way: its tail is split
off, and the entries of the tail are put back one after another under their
new keys. An entry that is put where another one stands replaces it without
notice, so a boundary that is off by one loses entries. `Rejoins` says that
this does not happen: the entries that are put back stand behind those that
were left, and each of them is put at a key of its own.

What is found afterwards is read off in two ways. Key by key, an answer is an
old answer or none. All keys at once, the keys that stay are carried one to
one onto the keys of the new map, so nothing outside a deleted span is lost,
found twice or written over.

## Main definitions

* `below`, `startingAt`: The two parts that a map is split into at a key.
* `insertMany`: Entries put into a map one after another.
* `Relabels`: A map with the entries that stay, each under its new key.
* `Rejoins`: Entries put back, none of them over another.

## Theorems

* `shiftUp_rejoins`, `removeSpan_rejoins`: Moving keys is splitting and putting back.
* `shiftUp_relabels`, `removeSpan_relabels`: No entry that stays is lost.
* `shiftUp_removeSpan`: What both edits make of a map.
-/

namespace Worksheet

namespace SparseMap

variable {α : Type}

/-! ## Splitting and putting back -/

/-- The entries with a key below `k`. -/
def below (m : SparseMap α) (k : Nat) : SparseMap α :=
  ⟨m.entries.filter fun e => e.1 < k, m.sorted.filter _⟩

/-- The entries with the key `k` or a later one. -/
def startingAt (m : SparseMap α) (k : Nat) : SparseMap α :=
  ⟨m.entries.filter fun e => k ≤ e.1, m.sorted.filter _⟩

/-- Put entries into a map one after another, each over an old one. -/
def insertMany (m : SparseMap α) (es : List (Nat × α)) : SparseMap α :=
  es.foldl (fun m e => m.insert e.1 e.2) m

/-- A map with entries put into it, none of which took the place of another. -/
structure Rejoins (m : SparseMap α) (es : List (Nat × α)) (m' : SparseMap α) : Prop where
  eq_insertMany : m' = m.insertMany es
  entries_eq : m'.entries = m.entries ++ es

/-- Entries behind all others are put in behind them. -/
theorem rejoins_of_entries {m m' : SparseMap α} {es : List (Nat × α)}
    (h : m'.entries = m.entries ++ es) : Rejoins m es m' where
  eq_insertMany := by
    refine eq_of_entries ?_
    rw [insertMany, entries_foldl_insert (h ▸ m'.sorted), h]
  entries_eq := h

theorem mem_below {m : SparseMap α} {k : Nat} {e : Nat × α} :
    e ∈ (m.below k).entries ↔ e ∈ m.entries ∧ e.1 < k := by
  rw [below, List.mem_filter, decide_eq_true_eq]

theorem mem_startingAt {m : SparseMap α} {k : Nat} {e : Nat × α} :
    e ∈ (m.startingAt k).entries ↔ e ∈ m.entries ∧ k ≤ e.1 := by
  rw [startingAt, List.mem_filter, decide_eq_true_eq]

/-- The two parts of a map, one behind the other, are the map. -/
theorem below_append_startingAt (m : SparseMap α) (k : Nat) :
    (m.below k).entries ++ (m.startingAt k).entries = m.entries := by
  obtain ⟨es, hsorted⟩ := m
  show (es.filter fun e => e.1 < k) ++ es.filter (fun e => k ≤ e.1) = es
  induction es with
  | nil => rfl
  | cons e es ih =>
    rw [List.pairwise_cons] at hsorted
    by_cases he : e.1 < k
    · rw [List.filter_cons_of_pos (by simpa using he),
        List.filter_cons_of_neg (by simpa using he), List.cons_append, ih hsorted.2]
    -- From the first entry of the tail on, every entry belongs to the tail.
    · have htail : ∀ f ∈ e :: es, k ≤ f.1 := by
        intro f hf
        rcases List.mem_cons.1 hf with rfl | hf
        · exact Nat.le_of_not_lt he
        · have hlt := hsorted.1 f hf
          omega
      rw [List.filter_eq_nil_iff.2 fun f hf => by simpa using htail f hf, List.nil_append,
        List.filter_eq_self.2 fun f hf => by simpa using htail f hf]

/-- Keys are moved up by putting the tail of a map back under its new keys. -/
theorem shiftUp_rejoins (m : SparseMap α) (start n : Nat) :
    Rejoins (m.below start) ((m.startingAt start).entries.map fun e => (e.1 + n, e.2))
      (m.shiftUp start n) := by
  refine rejoins_of_entries ?_
  have hentries : (m.shiftUp start n).entries =
      m.entries.map fun e => (if start ≤ e.1 then e.1 + n else e.1, e.2) := rfl
  rw [hentries, ← below_append_startingAt m start, List.map_append]
  -- No key below the gap moves, and every other key does.
  congr 1
  · refine (List.map_congr_left fun e he => ?_).trans (List.map_id _)
    rw [if_neg (Nat.not_le.2 (mem_below.1 he).2), id_eq]
  · refine List.map_congr_left fun e he => ?_
    rw [if_pos (mem_startingAt.1 he).2]

/-- The entries outside a span are those below it and those that are split off behind it. -/
theorem entries_eraseBetween (m : SparseMap α) (first last : Nat) :
    (m.eraseBetween first last).entries =
      (m.below first).entries ++ ((m.startingAt first).startingAt (last + 1)).entries := by
  have hentries : (m.eraseBetween first last).entries =
      m.entries.filter fun e => e.1 < first || last < e.1 := rfl
  rw [hentries, ← below_append_startingAt m first, List.filter_append]
  congr 1
  · refine List.filter_eq_self.2 fun e he => ?_
    simp [(mem_below.1 he).2]
  · refine List.filter_congr fun e he => ?_
    rw [decide_eq_false (Nat.not_lt.2 (mem_startingAt.1 he).2), Bool.false_or]
    rfl

/-- A span is dropped by putting back what is behind it, under keys that close the gap. -/
theorem removeSpan_rejoins (m : SparseMap α) {first last : Nat} (hspan : first ≤ last) :
    Rejoins (m.below first)
      (((m.startingAt first).startingAt (last + 1)).entries.map fun e =>
        (e.1 - (last - first + 1), e.2))
      (m.removeSpan first last) := by
  refine rejoins_of_entries ?_
  have hentries : (m.removeSpan first last).entries = (m.eraseBetween first last).entries.map
      fun e => (if last < e.1 then e.1 - (last + 1 - first) else e.1, e.2) := rfl
  rw [hentries, entries_eraseBetween, List.map_append]
  -- No key below the span moves, and every key that was split off behind it does.
  congr 1
  · refine (List.map_congr_left fun e he => ?_).trans (List.map_id _)
    have hlt := (mem_below.1 he).2
    rw [if_neg (by omega), id_eq]
  · refine List.map_congr_left fun e he => ?_
    have hle := (mem_startingAt.1 he).2
    rw [if_pos (by omega), Nat.sub_add_comm hspan]

/-! ## What is found afterwards -/

/-- A map with the entries of another whose keys stay, each under its new key: the keys that
    stay are carried one to one onto all keys, and every value is found under the new key. -/
structure Relabels (m m' : SparseMap α) (stays : Nat → Prop) (moved : Nat → Nat) : Prop where
  keys : Set.BijOn moved {k | m.contains k ∧ stays k} {k | m'.contains k}
  get?_eq : ∀ k, stays k → m'.get? (moved k) = m.get? k

/-- Nothing is lost or met twice if the new keys are apart and nothing else is found. -/
theorem relabels_of_get? {m m' : SparseMap α} {stays : Nat → Prop} {moved : Nat → Nat}
    (hapart : ∀ k l, stays k → stays l → moved k = moved l → k = l)
    (hget : ∀ k, stays k → m'.get? (moved k) = m.get? k)
    (hfound : ∀ k' v, m'.get? k' = some v → ∃ k, stays k ∧ moved k = k' ∧ m.get? k = some v) :
    Relabels m m' stays moved where
  get?_eq := hget
  keys := by
    refine ⟨?_, ?_, ?_⟩
    · rintro k ⟨hk, hstays⟩
      have hk : (m.get? k).isSome := hk
      show (m'.get? (moved k)).isSome
      rwa [hget k hstays]
    · rintro k ⟨-, hk⟩ l ⟨-, hl⟩ heq
      exact hapart k l hk hl heq
    · intro k' hk'
      obtain ⟨v, hv⟩ := Option.isSome_iff_exists.1 hk'
      obtain ⟨k, hstays, hmoved, hget⟩ := hfound k' v hv
      exact ⟨k, ⟨Option.isSome_iff_exists.2 ⟨v, hget⟩, hstays⟩, hmoved⟩

/-- Moving keys up loses no entry. -/
theorem shiftUp_relabels (m : SparseMap α) (start n : Nat) :
    Relabels m (m.shiftUp start n) (fun _ => True) fun k => if start ≤ k then k + n else k := by
  refine relabels_of_get? ?_ (fun k _ => get?_shiftUp m start n k) ?_
  · intro k l _ _ heq
    split at heq <;> split at heq <;> omega
  · intro k' v h
    obtain ⟨k, hmoved, hget⟩ := exists_of_get?_shiftUp h
    exact ⟨k, trivial, hmoved, hget⟩

/-- Dropping a span loses no entry outside of it. -/
theorem removeSpan_relabels (m : SparseMap α) {first last : Nat} (hspan : first ≤ last) :
    Relabels m (m.removeSpan first last) (fun k => k < first ∨ last < k)
      fun k => if last < k then k - (last + 1 - first) else k := by
  refine relabels_of_get? ?_ (fun k hk => get?_removeSpan m hspan hk) ?_
  · intro k l hk hl heq
    split at heq <;> split at heq <;> omega
  · intro k' v h
    exact exists_of_get?_removeSpan h

/-- What is found under a key after keys were moved up. -/
theorem get?_shiftUp_eq (m : SparseMap α) (start n k : Nat) :
    (m.shiftUp start n).get? k =
      if k < start then m.get? k else if k < start + n then none else m.get? (k - n) := by
  split
  · rename_i hlow
    have hget := get?_shiftUp m start n k
    rwa [if_neg (by omega)] at hget
  · rename_i hlow
    split
    · rename_i hgap
      -- A value in the gap would have come from a key that moved there, and none does.
      refine Option.eq_none_iff_forall_ne_some.2 fun v hv => ?_
      obtain ⟨l, hl, -⟩ := exists_of_get?_shiftUp hv
      split at hl <;> omega
    · rename_i hgap
      have hget := get?_shiftUp m start n (k - n)
      rwa [if_pos (by omega), Nat.sub_add_cancel (by omega)] at hget

/-- What is found under a key after a span was dropped. -/
theorem get?_removeSpan_eq (m : SparseMap α) {first last : Nat} (hspan : first ≤ last) (k : Nat) :
    (m.removeSpan first last).get? k =
      if k < first then m.get? k else m.get? (k + (last - first + 1)) := by
  split
  · rename_i hlow
    have hget := get?_removeSpan m hspan (k := k) (.inl hlow)
    rwa [if_neg (by omega)] at hget
  · rename_i hlow
    have hget := get?_removeSpan m hspan (k := k + (last - first + 1)) (.inr (by omega))
    rw [if_pos (by omega)] at hget
    rw [← hget]
    congr 1
    omega

/-- Moving keys up opens a gap and keeps every entry, dropping a span keeps every entry outside
    of it and closes the gap, and one undoes the other. Both are what comes of splitting off the
    tail of a map and putting its entries back. -/
theorem shiftUp_removeSpan (m : SparseMap α) :
    (∀ start n,
      (∀ k, (m.shiftUp start n).get? k =
        if k < start then m.get? k else if k < start + n then none else m.get? (k - n)) ∧
      Relabels m (m.shiftUp start n) (fun _ => True) (fun k => if start ≤ k then k + n else k) ∧
      Rejoins (m.below start) ((m.startingAt start).entries.map fun e => (e.1 + n, e.2))
        (m.shiftUp start n)) ∧
    (∀ first last, first ≤ last →
      (∀ k, (m.removeSpan first last).get? k =
        if k < first then m.get? k else m.get? (k + (last - first + 1))) ∧
      Relabels m (m.removeSpan first last) (fun k => k < first ∨ last < k)
        (fun k => if last < k then k - (last + 1 - first) else k) ∧
      Rejoins (m.below first)
        (((m.startingAt first).startingAt (last + 1)).entries.map fun e =>
          (e.1 - (last - first + 1), e.2))
        (m.removeSpan first last)) ∧
    ∀ start n, 1 ≤ n → (m.shiftUp start n).removeSpan start (start + n - 1) = m := by
  refine ⟨fun start n => ?_, fun first last hspan => ?_, fun start n hn => ?_⟩
  · exact ⟨get?_shiftUp_eq m start n, shiftUp_relabels m start n, shiftUp_rejoins m start n⟩
  · exact ⟨get?_removeSpan_eq m hspan, removeSpan_relabels m hspan, removeSpan_rejoins m hspan⟩
  · exact removeSpan_shiftUp m start hn

/-- Two lines opened before the second of three entries, the middle entry deleted, and the two
    lines deleted again. -/
theorem shiftUp_removeSpan_three :
    let m : SparseMap Char := ofList [(0, 'a'), (2, 'b'), (5, 'c')]
    1 ≤ 2 ∧ 1 ≤ 4 ∧ (m.shiftUp 2 2).get? 4 = some 'b' ∧ (m.shiftUp 2 2).get? 3 = none ∧
      (m.removeSpan 1 4).get? 1 = some 'c' ∧ (m.shiftUp 2 2).removeSpan 2 3 = m := by
  intro m
  obtain ⟨hup, hdown, hback⟩ := shiftUp_removeSpan m
  refine ⟨by decide, by decide, ?_, ?_, ?_, hback 2 2 (by decide)⟩
  · rw [(hup 2 2).1]
    rfl
  · rw [(hup 2 2).1]
    rfl
  · rw [(hdown 1 4 (by decide)).1]
    rfl

end SparseMap

end Worksheet
