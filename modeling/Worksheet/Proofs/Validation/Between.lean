import Worksheet.Proofs.Address.Notation
import Worksheet.Validation.Validator

/-!
# Two Bounds

A comparison with two bounds beside two comparisons with one.

Whether a text is blank, and whether it is a number or a date at all, does not depend on
what it is compared with. So a validator accepts a text if it does so without its
comparison and the comparison holds, and only the second part tells validators with
different bounds apart. A bound that cannot be read leaves nothing to hold. With one bound
this takes back that bound and no more. With two bounds it takes back both, since the two
are compared only if both can be read. A text beyond the bound that can be read is then
accepted, though the validator with this bound alone refuses it.

## Main definitions

* `Validator.Accepts`: The texts that are not refused.
* `Validator.Reads`: The bounds that can be read.
* `Validator.plain`, `Validator.comparing`: A validator with another comparison.
* `Validator.Meets`: The texts for which a comparison with one bound holds.

## Theorems

* `accepts_iff`: A text is accepted as it is, and then compared.
* `accepts_one_iff`, `accepts_two_iff`: Comparisons with one bound and with two.
* `accepts_two_iff_or`: Two bounds beside their parts.
* `accepts_between`: When two bounds are the conjunction of their parts.
-/

namespace Worksheet

namespace Validator

/-- Is a text accepted? -/
def Accepts (v : Validator) (s : String) : Prop := v.check s = none

instance (v : Validator) (s : String) : Decidable (v.Accepts s) :=
  inferInstanceAs (Decidable (v.check s = none))

/-- Can a bound be read? -/
def Reads (v : Validator) (bound : String) : Prop := (v.key? bound).isSome = true

instance (v : Validator) (bound : String) : Decidable (v.Reads bound) :=
  inferInstanceAs (Decidable ((v.key? bound).isSome = true))

/-- The validator without a comparison. -/
def plain (v : Validator) : Validator := { v with comparison := none, value := "" }

/-- The validator with another comparison. -/
def comparing (v : Validator) (c : Comparison) (value : String) : Validator :=
  { v with comparison := some c, value }

/-- What a text is compared as. A blank text is not compared. -/
def compared? (v : Validator) (s : String) : Option Key :=
  if Text.isAllBlank s then none else v.key? s

/-- Does a text compare with a bound as it should, if the two can be compared? -/
def Meets (v : Validator) (holds : Ordering → Bool) (bound s : String) : Prop :=
  ∀ k ∈ v.compared? s, ∀ o ∈ v.against? k bound, holds o = true

variable {v : Validator} {s lo hi bound value : String} {c : Comparison} {k : Key}

/-! ## Comparing -/

/-- Texts of one kind can be compared, so only a bound that cannot be read is in the way. -/
theorem isSome_against?_iff (hk : v.key? s = some k) :
    (v.against? k bound).isSome = true ↔ v.Reads bound := by
  rw [Reads, against?]
  cases hbound : v.key? bound with
  | none => exact Iff.rfl
  | some b =>
    refine iff_of_true ?_ rfl
    unfold key? at hk hbound
    cases hkind : v.kind with
    | date =>
      simp only [hkind, Option.map_eq_some_iff] at hk hbound
      obtain ⟨d, -, rfl⟩ := hk
      obtain ⟨d', -, rfl⟩ := hbound
      rfl
    | number =>
      simp only [hkind, Option.map_eq_some_iff] at hk hbound
      obtain ⟨x, -, rfl⟩ := hk
      obtain ⟨y, -, rfl⟩ := hbound
      simp only [Key.order?]
      split
      · rfl
      · split <;> rfl
    | list | phone | email =>
      simp only [hkind, Option.some.injEq] at hk hbound
      subst hk hbound
      rfl

theorem key?_of_compared? (hk : v.compared? s = some k) : v.key? s = some k := by
  rw [compared?] at hk
  split at hk
  · cases hk
  · exact hk

/-- A bound that cannot be read asks nothing of a text. -/
theorem meets_of_not_reads {holds : Ordering → Bool} (h : ¬v.Reads bound) :
    v.Meets holds bound s := by
  intro k hk o ho
  have hsome : (v.against? k bound).isSome = true := Option.isSome_of_mem ho
  exact absurd ((isSome_against?_iff (key?_of_compared? hk)).1 hsome) h

theorem checkOne_eq_none_iff {holds : Ordering → Bool} {rejection : String → Rejection} :
    v.checkOne k holds rejection = none ↔ ∀ o ∈ v.against? k v.value, holds o = true := by
  rw [checkOne]
  cases v.against? k v.value with
  | none => simp
  | some o => cases holds o <;> simp

theorem checkTwo_eq_none_iff : v.checkTwo k true = none ↔
    ∀ a ∈ v.against? k v.bounds.1, ∀ b ∈ v.against? k v.bounds.2,
      a.isGE = true ∧ b.isLE = true := by
  simp only [checkTwo]
  cases v.against? k v.bounds.1 with
  | none => simp
  | some a =>
    cases v.against? k v.bounds.2 with
    | none => simp
    | some b => cases a <;> cases b <;> simp

/-- Two bounds are written with a comma between them. -/
theorem bounds_comparing (hlo : ',' ∉ lo.toList) :
    (v.comparing c (lo ++ "," ++ hi)).bounds = (lo, hi) := by
  have hlist : (lo ++ "," ++ hi).toList = lo.toList ++ ',' :: hi.toList := by simp
  simp only [bounds, comparing, hlist, Text.cutAt_append hlo, String.ofList_toList]

/-! ## Accepting -/

/-- A number or a date is accepted as such first, and then compared. -/
theorem accepts_iff (hkind : v.kind = .number ∨ v.kind = .date) : v.Accepts s ↔
    v.plain.Accepts s ∧ ∀ k ∈ v.compared? s, ∀ c ∈ v.comparison, v.checkKey k c = none := by
  have hlist : v.kind ≠ .list := by
    rcases hkind with h | h <;> rw [h] <;> decide
  have hfits : v.plain.fits s = v.fits s := rfl
  unfold Accepts check compared?
  simp only [hfits, show v.plain.kind = v.kind from rfl,
    show v.plain.required = v.required from rfl,
    show v.plain.comparison = none from rfl, if_neg hlist]
  by_cases hblank : Text.isAllBlank s = true
  · simp [hblank]
  · by_cases hfit : v.fits s = true
    · cases v.comparison <;> cases v.key? s <;> simp [hblank, hfit]
    · simp [hblank, hfit]

/-- A comparison with one bound. -/
theorem accepts_one_iff (hkind : v.kind = .number ∨ v.kind = .date) {holds : Ordering → Bool}
    {rejection : String → Rejection}
    (hc : ∀ k, (v.comparing c bound).checkKey k c =
      (v.comparing c bound).checkOne k holds rejection) :
    (v.comparing c bound).Accepts s ↔ v.plain.Accepts s ∧ v.Meets holds bound s := by
  rw [accepts_iff (v := v.comparing c bound) hkind]
  refine and_congr Iff.rfl (forall₂_congr fun k _ => ?_)
  have hone : (v.comparing c bound).checkOne k holds rejection = none ↔
      ∀ o ∈ v.against? k bound, holds o = true := checkOne_eq_none_iff
  rw [← hc] at hone
  exact ⟨fun h => hone.1 (h c rfl), fun h c' hc' => Option.some.inj hc' ▸ hone.2 h⟩

/-- A comparison with two bounds is made if both can be read. -/
theorem accepts_two_iff (hkind : v.kind = .number ∨ v.kind = .date) (hlo : ',' ∉ lo.toList)
    (hc : c = .between ∨ c = .betweenEnds) : (v.comparing c (lo ++ "," ++ hi)).Accepts s ↔
      v.plain.Accepts s ∧
        (v.Reads lo → v.Reads hi → v.Meets Ordering.isGE lo s ∧ v.Meets Ordering.isLE hi s) := by
  have hcheck (k : Key) : (v.comparing c (lo ++ "," ++ hi)).checkKey k c = none ↔
      ∀ a ∈ v.against? k lo, ∀ b ∈ v.against? k hi, a.isGE = true ∧ b.isLE = true := by
    have htwo := checkTwo_eq_none_iff (v := v.comparing c (lo ++ "," ++ hi)) (k := k)
    rw [bounds_comparing hlo] at htwo
    rcases hc with rfl | rfl
    · exact htwo
    · exact htwo
  rw [accepts_iff (v := v.comparing c (lo ++ "," ++ hi)) hkind]
  refine and_congr Iff.rfl ?_
  constructor
  · intro h hreadsLo hreadsHi
    -- Both orders are there, so what is said about them together is said about each.
    have hboth (k : Key) (hk : k ∈ v.compared? s) (a b : Ordering) (ha : a ∈ v.against? k lo)
        (hb : b ∈ v.against? k hi) : a.isGE = true ∧ b.isLE = true :=
      (hcheck k).1 (h k hk c rfl) a ha b hb
    refine ⟨fun k hk a ha => ?_, fun k hk b hb => ?_⟩
    · obtain ⟨b, hb⟩ := Option.isSome_iff_exists.1
        ((isSome_against?_iff (key?_of_compared? hk)).2 hreadsHi)
      exact (hboth k hk a b ha hb).1
    · obtain ⟨a, ha⟩ := Option.isSome_iff_exists.1
        ((isSome_against?_iff (key?_of_compared? hk)).2 hreadsLo)
      exact (hboth k hk a b ha hb).2
  · intro h k hk c' hc'
    obtain rfl : c = c' := Option.some.inj hc'
    have hkey : v.key? s = some k := key?_of_compared? hk
    refine (hcheck k).2 fun a ha b hb => ?_
    obtain ⟨hge, hle⟩ := h ((isSome_against?_iff hkey).1 (Option.isSome_of_mem ha))
      ((isSome_against?_iff hkey).1 (Option.isSome_of_mem hb))
    exact ⟨hge k hk a ha, hle k hk b hb⟩

/-- A bound that cannot be read refuses no text that is accepted as it is. -/
theorem accepts_one_of_not_reads (hkind : v.kind = .number ∨ v.kind = .date)
    {holds : Ordering → Bool} {rejection : String → Rejection}
    (hc : ∀ k, (v.comparing c bound).checkKey k c =
      (v.comparing c bound).checkOne k holds rejection)
    (hplain : v.plain.Accepts s) (h : ¬v.Reads bound) : (v.comparing c bound).Accepts s :=
  (accepts_one_iff hkind hc).2 ⟨hplain, meets_of_not_reads h⟩

/-- Two bounds accept what both parts accept, and what is compared at all if one of the
    bounds cannot be read. -/
theorem accepts_two_iff_or (hkind : v.kind = .number ∨ v.kind = .date) (hlo : ',' ∉ lo.toList)
    (hc : c = .between ∨ c = .betweenEnds) : (v.comparing c (lo ++ "," ++ hi)).Accepts s ↔
      ((v.comparing .greaterOrEqual lo).Accepts s ∧ (v.comparing .lessOrEqual hi).Accepts s) ∨
        (v.plain.Accepts s ∧ ¬(v.Reads lo ∧ v.Reads hi)) := by
  have hleast : (v.comparing .greaterOrEqual lo).Accepts s ↔
      v.plain.Accepts s ∧ v.Meets Ordering.isGE lo s := accepts_one_iff hkind fun _ => rfl
  have hmost : (v.comparing .lessOrEqual hi).Accepts s ↔
      v.plain.Accepts s ∧ v.Meets Ordering.isLE hi s := accepts_one_iff hkind fun _ => rfl
  rw [accepts_two_iff hkind hlo hc, hleast, hmost]
  constructor
  · rintro ⟨hplain, hmeets⟩
    by_cases hreads : v.Reads lo ∧ v.Reads hi
    · obtain ⟨hge, hle⟩ := hmeets hreads.1 hreads.2
      exact .inl ⟨⟨hplain, hge⟩, hplain, hle⟩
    · exact .inr ⟨hplain, hreads⟩
  · rintro (⟨⟨hplain, hge⟩, -, hle⟩ | ⟨hplain, hreads⟩)
    · exact ⟨hplain, fun _ _ => ⟨hge, hle⟩⟩
    · exact ⟨hplain, fun hreadsLo hreadsHi => absurd ⟨hreadsLo, hreadsHi⟩ hreads⟩

/-- A text is accepted between two bounds if it is accepted above the one and below the
    other, or if one of the bounds cannot be read and the text is one that is compared at
    all. So two bounds accept the same texts as both parts, except for the texts that a
    bound which can be read refuses beside one that cannot. -/
theorem accepts_between (v : Validator) (hkind : v.kind = .number ∨ v.kind = .date)
    {lo hi : String} (hlo : ',' ∉ lo.toList) {c : Comparison}
    (hc : c = .between ∨ c = .betweenEnds) (text : String) :
    let between := v.comparing c (lo ++ "," ++ hi)
    let atLeast := v.comparing .greaterOrEqual lo
    let atMost := v.comparing .lessOrEqual hi
    (between.Accepts text ↔ (atLeast.Accepts text ∧ atMost.Accepts text) ∨
      (v.plain.Accepts text ∧ ¬(v.Reads lo ∧ v.Reads hi))) ∧
    ((between.Accepts text ↔ atLeast.Accepts text ∧ atMost.Accepts text) ↔
      ¬(v.plain.Accepts text ∧
        ((v.Reads lo ∧ ¬v.Reads hi ∧ ¬atLeast.Accepts text) ∨
          (¬v.Reads lo ∧ v.Reads hi ∧ ¬atMost.Accepts text)))) := by
  intro between atLeast atMost
  have hparts : between.Accepts text ↔ (atLeast.Accepts text ∧ atMost.Accepts text) ∨
      (v.plain.Accepts text ∧ ¬(v.Reads lo ∧ v.Reads hi)) := accepts_two_iff_or hkind hlo hc
  refine ⟨hparts, fun hiff => ?_, fun hnone => ⟨fun hboth => ?_, fun hone => hparts.2 (.inl hone)⟩⟩
  · -- With a bound that cannot be read the text is accepted between the two.
    rintro ⟨hplain, ⟨-, hunread, hrefused⟩ | ⟨hunread, -, hrefused⟩⟩
    · exact hrefused (hiff.1 (hparts.2 (.inr ⟨hplain, fun h => hunread h.2⟩))).1
    · exact hrefused (hiff.1 (hparts.2 (.inr ⟨hplain, fun h => hunread h.1⟩))).2
  · rcases hparts.1 hboth with hone | ⟨hplain, hunread⟩
    · exact hone
    · -- The bound that cannot be read asks nothing, and the other one does not refuse.
      constructor
      · by_contra hrefused
        by_cases hreadsLo : v.Reads lo
        · exact hnone ⟨hplain, .inl ⟨hreadsLo, fun h => hunread ⟨hreadsLo, h⟩, hrefused⟩⟩
        · exact hrefused (accepts_one_of_not_reads hkind (fun _ => rfl) hplain hreadsLo)
      · by_contra hrefused
        by_cases hreadsHi : v.Reads hi
        · exact hnone ⟨hplain, .inr ⟨fun h => hunread ⟨h, hreadsHi⟩, hreadsHi, hrefused⟩⟩
        · exact hrefused (accepts_one_of_not_reads hkind (fun _ => rfl) hplain hreadsHi)

/-- Seven is beyond five. It is refused between one and five, and accepted between a bound
    that cannot be read and five. -/
theorem accepts_between_unread :
    let v : Validator := { kind := .number }
    (¬(v.comparing .between "1,5").Accepts "7" ∧ ¬(v.comparing .lessOrEqual "5").Accepts "7") ∧
      (v.comparing .between "one,5").Accepts "7" ∧
      ¬((v.comparing .between "one,5").Accepts "7" ↔
        (v.comparing .greaterOrEqual "one").Accepts "7" ∧
          (v.comparing .lessOrEqual "5").Accepts "7") := by
  intro v
  have hmost : ¬(v.comparing .lessOrEqual "5").Accepts "7" := by decide
  have hplain : v.plain.Accepts "7" := by decide
  have hone : v.Reads "1" := by decide
  have hfive : v.Reads "5" := by decide
  have hword : ¬v.Reads "one" := by decide
  obtain ⟨hread, -⟩ := @accepts_between v (.inl rfl) "1" "5" (by decide) .between (.inl rfl) "7"
  obtain ⟨hunread, hdiffer⟩ := @accepts_between v (.inl rfl) "one" "5" (by decide) .between
    (.inl rfl) "7"
  refine ⟨⟨fun h => ?_, hmost⟩, hunread.2 (.inr ⟨hplain, fun h => hword h.1⟩), fun h => ?_⟩
  · rcases hread.1 h with ⟨-, hle⟩ | ⟨-, hnot⟩
    · exact hmost hle
    · exact hnot ⟨hone, hfive⟩
  · exact hdiffer.1 h ⟨hplain, .inr ⟨hword, hfive, hmost⟩⟩

end Validator

end Worksheet
