import Mathlib.Data.List.Pairwise
import Worksheet.Merges
import Worksheet.Proofs.Address.Moving

/-!
# Merges That Stay Apart

Registries in which every merge has more than one cell and no cell is in two.

The registry does not look for overlaps. It keeps merges apart as long as those
who add a merge have made room for it, so every lemma about an addition has
that as a hypothesis. Removing merges never needs one, and neither does
replacing each merge by another as long as merges that were apart stay apart.

## Main definitions

* `Merges.Apart`: The merges are multiple and disjoint.

## Theorems

* `Apart.eq_of_intersects`: Merges that meet are the same.
* `Apart.filterMap`: Merges replaced one by one.
* `Apart.add`, `ranges_foldl_add`, `Apart.append`: Adding merges where there is room.
* `Apart.moveWithin`: Moving the merges of a block.
-/

namespace Worksheet

instance : Std.Symm fun a b : Range => a.intersects b = false :=
  ⟨fun a b h => by rw [Range.intersects_comm, h]⟩

namespace Merges

/-- Every merge has more than one cell, and no two share a cell. -/
structure Apart (m : Merges) : Prop where
  multiple : ∀ r ∈ m.ranges, r.isMultiple = true
  disjoint : m.ranges.Pairwise fun a b => a.intersects b = false

instance decidableApart (m : Merges) : Decidable m.Apart :=
  decidable_of_iff ((∀ r ∈ m.ranges, r.isMultiple = true) ∧
      m.ranges.Pairwise fun a b => a.intersects b = false)
    ⟨fun h => ⟨h.1, h.2⟩, fun h => ⟨h.multiple, h.disjoint⟩⟩

namespace Apart

variable {m : Merges}

theorem empty : Apart Merges.empty := ⟨by simp [Merges.empty], .nil⟩

/-- Merges that meet are the same. -/
theorem eq_of_intersects (h : m.Apart) {a b : Range} (ha : a ∈ m.ranges) (hb : b ∈ m.ranges)
    (hab : a.intersects b = true) : a = b := by
  by_contra hne
  have hapart : a.intersects b = false := h.disjoint.forall ha hb hne
  rw [hapart] at hab
  cases hab

/-- Merges that have a cell in common are the same. -/
theorem eq_of_mem (h : m.Apart) {a b : Range} (ha : a ∈ m.ranges) (hb : b ∈ m.ranges)
    {c : CellRef} (hac : a.mem c = true) (hbc : b.mem c = true) : a = b :=
  h.eq_of_intersects ha hb (Range.intersects_of_mem hac hbc)

/-- Merges may be dropped or replaced, as long as merges that were apart stay
    apart. -/
theorem filterMap (h : m.Apart) {f : Range → Option Range}
    (hmultiple : ∀ r ∈ m.ranges, ∀ r' ∈ f r, r'.isMultiple = true)
    (hdisjoint : ∀ a ∈ m.ranges, ∀ b ∈ m.ranges, a.intersects b = false →
      ∀ a' ∈ f a, ∀ b' ∈ f b, a'.intersects b' = false) :
    Apart ⟨m.ranges.filterMap f⟩ where
  multiple := fun r' hr' => by
    obtain ⟨r, hr, hf⟩ := List.mem_filterMap.1 hr'
    exact hmultiple r hr r' hf
  disjoint := List.pairwise_filterMap.2 <| h.disjoint.imp_of_mem
    fun {a b} ha hb hab a' ha' b' hb' => hdisjoint a ha b hb hab a' ha' b' hb'

theorem filter (h : m.Apart) (p : Range → Bool) : Apart ⟨m.ranges.filter p⟩ :=
  ⟨fun r hr => h.multiple r (List.mem_filter.1 hr).1, h.disjoint.filter p⟩

theorem removeWithin (h : m.Apart) (r : Range) : (m.removeWithin r).Apart := h.filter _

/-- Merges may be put beside others that they do not meet. -/
theorem append (h : m.Apart) {new : List Range} (hnew : Apart ⟨new⟩)
    (hroom : ∀ a ∈ m.ranges, ∀ b ∈ new, a.intersects b = false) : Apart ⟨m.ranges ++ new⟩ where
  multiple := fun r hr => (List.mem_append.1 hr).elim (h.multiple r) (hnew.multiple r)
  disjoint := List.pairwise_append.2 ⟨h.disjoint, hnew.disjoint, hroom⟩

theorem of_append {kept new : List Range} (h : Apart ⟨kept ++ new⟩) : Apart ⟨new⟩ where
  multiple := fun r hr => h.multiple r (List.mem_append_right _ hr)
  disjoint := (List.pairwise_append.1 h.disjoint).2.1

theorem single {r : Range} (hr : r.isMultiple = true) : Apart ⟨[r]⟩ where
  multiple := fun x hx => by rwa [List.mem_singleton.1 hx]
  disjoint := List.pairwise_singleton _ r

/-- A merge may be added if no other merge sticks out of it. -/
theorem add (h : m.Apart) {r : Range} (hr : r.isMultiple = true)
    (hroom : ∀ x ∈ m.ranges, x.intersects r = true → x.within r = true) : (m.add r).Apart := by
  refine (h.removeWithin r).append (single hr) fun a ha b hb => ?_
  obtain ⟨ha, hout⟩ := List.mem_filter.1 ha
  rw [List.mem_singleton.1 hb, Bool.eq_false_iff]
  intro hmeets
  rw [hroom a ha hmeets] at hout
  cases hout

/-- Every merge may be replaced by another, as long as merges that were apart
    stay apart. -/
theorem map (h : m.Apart) {f : Range → Range}
    (hmultiple : ∀ r ∈ m.ranges, (f r).isMultiple = true)
    (hdisjoint : ∀ a ∈ m.ranges, ∀ b ∈ m.ranges, a.intersects b = false →
      (f a).intersects (f b) = false) : Apart ⟨m.ranges.map f⟩ := by
  rw [← List.filterMap_eq_map]
  refine h.filterMap (fun r hr r' hr' => ?_) fun a ha b hb hab a' ha' b' hb' => ?_
  · cases hr'
    exact hmultiple r hr
  · cases ha'
    cases hb'
    exact hdisjoint a ha b hb hab

/-- The merges of a block may be moved, if no merge sticks out of the block and the
    place it goes to holds no merge but one of its own. -/
theorem moveWithin (h : m.Apart) {r f : Range} {d : Displacement}
    (hrows : (f.top : Int) = r.top + d.rows ∧ (f.bottom : Int) = r.bottom + d.rows)
    (hcols : (f.left : Int) = r.left + d.cols ∧ (f.right : Int) = r.right + d.cols)
    (hroom : ∀ x ∈ m.ranges, x.intersects f = true → x = f ∧ x.within r = true) :
    (m.moveWithin r d).Apart := by
  have hcases : ∀ x : Range, (if x.within r then (x.move? d).getD x else x) = x ∨
      x.within r = true ∧ ∃ x', x.move? d = some x' ∧
        (if x.within r then (x.move? d).getD x else x) = x' := by
    intro x
    by_cases hx : x.within r = true
    · cases hmove : x.move? d with
      | none => simp
      | some x' => exact .inr ⟨hx, x', rfl, by simp [hx]⟩
    · simp [hx]
  -- A block that a merge fills can only be moved onto itself.
  have hstay : ∀ a ∈ m.ranges, ∀ b ∈ m.ranges, a.intersects b = false → a.within r = true →
      ∀ a', a.move? d = some a' → a'.intersects b = false := by
    intro a ha b hb hab hin a' ha'
    rw [Range.move?_eq_some_iff] at ha'
    rw [Range.within_iff] at hin
    rw [Bool.eq_false_iff] at hab ⊢
    intro hmeets
    rw [ne_eq, Range.intersects_iff] at hab
    rw [Range.intersects_iff] at hmeets
    obtain ⟨rfl, hfills⟩ := hroom b hb (by rw [Range.intersects_iff]; omega)
    rw [Range.within_iff] at hfills
    omega
  refine h.map (fun x hx => ?_) fun a ha b hb hab => ?_
  · rcases hcases x with heq | ⟨-, x', hx', heq⟩
    · rw [heq]
      exact h.multiple x hx
    · rw [heq, Range.isMultiple_move hx']
      exact h.multiple x hx
  · rcases hcases a with heqa | ⟨hina, a', ha', heqa⟩
    · rcases hcases b with heqb | ⟨hinb, b', hb', heqb⟩
      · rw [heqa, heqb, hab]
      · rw [heqa, heqb, Range.intersects_comm]
        exact hstay b hb a ha (by rw [Range.intersects_comm, hab]) hinb b' hb'
    · rcases hcases b with heqb | ⟨-, b', hb', heqb⟩
      · rw [heqa, heqb]
        exact hstay a ha b hb hab hina a' ha'
      · rw [heqa, heqb, Range.intersects_move ha' hb', hab]

end Apart

theorem removeWithin_eq_self {m : Merges} {r : Range}
    (hroom : ∀ x ∈ m.ranges, x.intersects r = false) : m.removeWithin r = m := by
  have hkept : m.ranges.filter (fun x => !x.within r) = m.ranges := by
    refine List.filter_eq_self.2 fun x hx => ?_
    rw [Bool.not_eq_true', Bool.eq_false_iff]
    intro hwithin
    have hmeets := Range.intersects_of_within hwithin (Range.intersects_self x)
    rw [Range.intersects_comm, hroom x hx] at hmeets
    cases hmeets
  rw [removeWithin, hkept]

/-- Merges that are added do not absorb those that none of them meets. -/
theorem ranges_foldl_add_append {kept new : List Range} (acc : List Range)
    (hroom : ∀ a ∈ kept, ∀ b ∈ new, a.intersects b = false) :
    (new.foldl Merges.add ⟨kept ++ acc⟩).ranges = kept ++ (new.foldl Merges.add ⟨acc⟩).ranges := by
  induction new generalizing acc with
  | nil => rfl
  | cons r new ih =>
    have hkept : kept.filter (fun x => !x.within r) = kept :=
      congrArg ranges <| removeWithin_eq_self (m := ⟨kept⟩) fun a ha =>
        hroom a ha r List.mem_cons_self
    have hadd : Merges.add ⟨kept ++ acc⟩ r = ⟨kept ++ (Merges.add ⟨acc⟩ r).ranges⟩ := by
      simp only [add, removeWithin, List.filter_append, hkept, List.append_assoc]
    rw [List.foldl_cons, List.foldl_cons, hadd]
    exact ih _ fun a ha b hb => hroom a ha b (List.mem_cons_of_mem _ hb)

/-- Merges that do not meet each other are all added. -/
theorem ranges_foldl_add {new : List Range}
    (hnew : new.Pairwise fun a b => a.intersects b = false) :
    (new.foldl Merges.add .empty).ranges = new := by
  induction new with
  | nil => rfl
  | cons r new ih =>
    obtain ⟨hfirst, hrest⟩ := List.pairwise_cons.1 hnew
    have hroom : ∀ a ∈ [r], ∀ b ∈ new, a.intersects b = false := fun a ha b hb => by
      rw [List.mem_singleton.1 ha]
      exact hfirst b hb
    have hadded := ranges_foldl_add_append [] hroom
    exact hadded.trans (congrArg (List.cons r) (ih hrest))

theorem mem_of_mem_foldl_add {new : List Range} {m : Merges} {r : Range}
    (h : r ∈ (new.foldl Merges.add m).ranges) : r ∈ m.ranges ∨ r ∈ new := by
  induction new generalizing m with
  | nil => exact .inl h
  | cons r' new ih =>
    rcases ih h with hadd | hnew
    · rcases List.mem_append.1 hadd with hkept | hsingle
      · exact .inl (List.mem_filter.1 hkept).1
      · exact .inr (List.mem_cons.2 (.inl (List.mem_singleton.1 hsingle)))
    · exact .inr (List.mem_cons_of_mem _ hnew)

theorem straddling?_eq_none_iff {m : Merges} {r : Range} : m.straddling? r = none ↔
    ∀ x ∈ m.ranges, x.intersects r = true → x.within r = true := by
  simp [straddling?, List.find?_eq_none]

end Merges

end Worksheet
