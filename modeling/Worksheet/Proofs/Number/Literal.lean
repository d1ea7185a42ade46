import Mathlib.Data.List.TakeWhile
import Worksheet.Number.Notation
import Worksheet.Proofs.Text.Letter

/-!
# The Characters of a Literal

A text that spells a decimal consists of digits, points, exponent letters and
signs.

The converse is far from true, and nothing here says what a literal looks like.
What is needed elsewhere is that a single character of any other kind keeps a
text from being a number, wherever it stands, and that a letter does so unless it
begins the exponent.

## Main definitions

* `isLiteral`: The characters that a literal can have.

## Theorems

* `isLiteral_of_read?`: A literal has no others.
* `parts_of_read?`: The parts of a literal.
* `letter_of_read?`: The only letter of a literal begins its exponent.
* `letter_of_ofText?`: It is so for numbers in cells.
-/

namespace Worksheet

namespace Number

/-- A character of a text is its sign or comes after it. -/
theorem mem_takeSign {cs : List Char} {c : Char} (h : c ∈ cs) :
    c ∈ (takeSign cs).2 ∨ c = '-' ∨ c = '+' := by
  unfold takeSign
  split
  · rw [List.mem_cons] at h
    rcases h with rfl | h
    · exact .inr (.inl rfl)
    · exact .inl h
  · rw [List.mem_cons] at h
    rcases h with rfl | h
    · exact .inr (.inr rfl)
    · exact .inl h
  · exact .inl h

/-- Is it a character that a literal can have? -/
def isLiteral (c : Char) : Bool :=
  Text.isDigit c || c == '.' || c == 'e' || c == 'E' || c == '-' || c == '+'

/-- An exponent consists of characters of literals. -/
theorem isLiteral_of_readExponent? {cs : List Char} {e : Int} (h : readExponent? cs = some e) :
    ∀ c ∈ cs, isLiteral c = true := by
  intro c hc
  cases cs with
  | nil => simp at hc
  | cons d ds =>
    simp only [readExponent?] at h
    by_cases hd : d = 'e' ∨ d = 'E'
    · rw [if_pos hd] at h
      by_cases hdigits : (takeSign ds).2 ≠ [] ∧ (takeSign ds).2.all Text.isDigit = true
      · rw [List.mem_cons] at hc
        rcases hc with rfl | hc
        · rcases hd with rfl | rfl <;> decide
        · rcases mem_takeSign hc with hc | rfl | rfl
          · have hdigit := List.all_eq_true.1 hdigits.2 c hc
            simp [isLiteral, hdigit]
          · decide
          · decide
      · rw [if_neg hdigits] at h
        exact absurd h (by simp)
    · rw [if_neg hd] at h
      exact absurd h (by simp)

/-- A literal consists of characters of literals. -/
theorem isLiteral_of_read? {cs : List Char} {l : Literal} (h : Literal.read? cs = some l) :
    ∀ c ∈ cs, isLiteral c = true := by
  intro c hc
  have hdigit {ds : List Char} (hd : c ∈ ds.takeWhile Text.isDigit) : isLiteral c = true := by
    simp [isLiteral, List.mem_takeWhile_imp hd]
  unfold Literal.read? at h
  rcases mem_takeSign hc with hbody | rfl | rfl
  · rw [← List.takeWhile_append_dropWhile (p := Text.isDigit) (l := (takeSign cs).2),
      List.mem_append] at hbody
    rcases hbody with hbody | hbody
    · exact hdigit hbody
    · simp only at h
      split at h
      · rename_i r hr
        rw [hr, List.mem_cons] at hbody
        split at h
        · exact absurd h (by simp)
        · rcases Option.map_eq_some_iff.1 h with ⟨e, he, -⟩
          rcases hbody with rfl | hbody
          · decide
          · rw [← List.takeWhile_append_dropWhile (p := Text.isDigit) (l := r), List.mem_append]
              at hbody
            rcases hbody with hbody | hbody
            · exact hdigit hbody
            · exact isLiteral_of_readExponent? he c hbody
      · split at h
        · exact absurd h (by simp)
        · rcases Option.map_eq_some_iff.1 h with ⟨e, he, -⟩
          exact isLiteral_of_readExponent? he c hbody
  · decide
  · decide

/-- A sign is no letter, so a letter is behind it. -/
theorem takeSign_append_cons (p q : List Char) {c : Char} (h : Text.isLetter c = true) :
    ∃ p', (takeSign (p ++ c :: q)).2 = p' ++ c :: q ∧ p' <:+ p := by
  cases p with
  | nil =>
    refine ⟨[], ?_, List.suffix_refl _⟩
    have hsign : c ≠ '-' ∧ c ≠ '+' := by
      refine ⟨?_, ?_⟩ <;> rintro rfl <;> exact absurd h (by decide)
    unfold takeSign
    split
    · rename_i heq
      exact absurd (List.cons.inj heq).1 hsign.1
    · rename_i heq
      exact absurd (List.cons.inj heq).1 hsign.2
    · rfl
  | cons d p =>
    unfold takeSign
    split
    · rename_i heq
      rw [← (List.cons.inj heq).2]
      exact ⟨p, rfl, List.suffix_cons _ _⟩
    · rename_i heq
      rw [← (List.cons.inj heq).2]
      exact ⟨p, rfl, List.suffix_cons _ _⟩
    · exact ⟨d :: p, rfl, List.suffix_refl _⟩

/-- The letter of an exponent is its first character. -/
theorem letter_of_readExponent? {p q : List Char} {c : Char} {e : Int}
    (h : readExponent? (p ++ c :: q) = some e) (hc : Text.isLetter c = true) :
    p = [] ∧ Text.upper c = 'E' := by
  cases p with
  | nil =>
    refine ⟨rfl, ?_⟩
    rw [List.nil_append, readExponent?] at h
    by_cases he : c = 'e' ∨ c = 'E'
    · rcases he with rfl | rfl <;> rfl
    · rw [if_neg he] at h
      cases h
  | cons d p =>
    exfalso
    simp only [List.cons_append, readExponent?] at h
    split at h
    · -- All characters behind the first one, and behind a sign, are digits.
      split at h
      · rename_i hdigits
        obtain ⟨p', hp', -⟩ := takeSign_append_cons p q hc
        have hdigit := List.all_eq_true.1 hdigits.2 c (by rw [hp']; simp)
        rw [Text.isDigit_of_isLetter hc] at hdigit
        cases hdigit
      · cases h
    · cases h

/-- A literal is digits and points, at least one of them, and an exponent behind its
    sign. -/
theorem parts_of_read? {cs : List Char} {l : Literal} (h : Literal.read? cs = some l) :
    ∃ mantissa tail, (takeSign cs).2 = mantissa ++ tail ∧ mantissa ≠ [] ∧
      (∀ d ∈ mantissa, Text.isDigit d = true ∨ d = '.') ∧ ∃ e, readExponent? tail = some e := by
  unfold Literal.read? at h
  simp only at h
  generalize (takeSign cs).2 = body at h ⊢
  have hbody := List.takeWhile_append_dropWhile (p := Text.isDigit) (l := body)
  have hdigit {ds : List Char} : ∀ d ∈ ds.takeWhile Text.isDigit,
      Text.isDigit d = true ∨ d = '.' := fun d hd => .inl (List.mem_takeWhile_imp hd)
  split at h
  · rename_i r hr
    -- With a point, the digits on both sides of it belong to the mantissa.
    split at h
    · cases h
    · obtain ⟨e, he, -⟩ := Option.map_eq_some_iff.1 h
      refine ⟨body.takeWhile Text.isDigit ++ '.' :: r.takeWhile Text.isDigit,
        r.dropWhile Text.isDigit, ?_, by simp, ?_, e, he⟩
      · rw [List.append_assoc, List.cons_append, List.takeWhile_append_dropWhile, ← hr, hbody]
      · intro d hd
        rcases List.mem_append.1 hd with hd | hd
        · exact hdigit d hd
        · rcases List.mem_cons.1 hd with rfl | hd
          · exact .inr rfl
          · exact hdigit d hd
  · split at h
    · cases h
    · rename_i hne
      obtain ⟨e, he, -⟩ := Option.map_eq_some_iff.1 h
      exact ⟨_, _, hbody.symm, fun hnil => hne ⟨hnil, rfl⟩, hdigit, e, he⟩

/-- The only letter of a literal begins its exponent, right behind a digit or a point. -/
theorem letter_of_read? {p q : List Char} {c : Char} {l : Literal}
    (h : Literal.read? (p ++ c :: q) = some l) (hc : Text.isLetter c = true) :
    Text.upper c = 'E' ∧ ∃ d ∈ p.getLast?, Text.isDigit d = true ∨ d = '.' := by
  obtain ⟨p', hp', hsuffix⟩ := takeSign_append_cons p q hc
  obtain ⟨mantissa, tail, hparts, hne, hmantissa, e, htail⟩ := parts_of_read? h
  rw [hp'] at hparts
  -- The letter is not in the mantissa, so the mantissa is in front of it.
  have hletter : c ∉ mantissa := by
    intro hmem
    rcases hmantissa c hmem with hdigit | rfl
    · rw [Text.isDigit_of_isLetter hc] at hdigit
      cases hdigit
    · exact absurd hc (by decide)
  obtain ⟨p'', rfl, rfl⟩ : ∃ p'', p' = mantissa ++ p'' ∧ tail = p'' ++ c :: q := by
    rcases List.append_eq_append_iff.1 hparts with ⟨m, hm, hq⟩ | ⟨m, hm, hq⟩
    · cases m with
      | nil => exact ⟨[], by simpa using hm.symm, by simpa using hq.symm⟩
      | cons d m =>
        obtain ⟨rfl, -⟩ := List.cons.inj hq
        exact absurd (by rw [hm]; simp) hletter
    · exact ⟨m, hm, hq⟩
  obtain ⟨rfl, hexponent⟩ := letter_of_readExponent? htail hc
  refine ⟨hexponent, _, ?_, hmantissa _ (List.getLast_mem hne)⟩
  obtain ⟨s, rfl⟩ := hsuffix
  rw [List.append_nil, List.getLast?_append, List.getLast?_eq_some_getLast hne]
  rfl

/-- The only letter of a number begins its exponent, right behind a digit or a point. -/
theorem letter_of_ofText? {p q : List Char} {c : Char} {x : Float}
    (h : ofText? (String.ofList (p ++ c :: q)) = some x) (hc : Text.isLetter c = true) :
    Text.upper c = 'E' ∧ ∃ d ∈ p.getLast?, Text.isDigit d = true ∨ d = '.' := by
  rw [ofText?, String.toList_ofList,
    Text.trimChars_append_cons p q (Text.not_isBlank_of_isLetter hc)] at h
  split at h
  · rename_i l hread
    obtain ⟨hexponent, d, hd, hdigit⟩ := letter_of_read? hread hc
    refine ⟨hexponent, d, ?_, hdigit⟩
    -- What is trimmed off stands in front of the rest.
    have hp := List.takeWhile_append_dropWhile (p := Text.isBlank) (l := p)
    rw [← hp, List.getLast?_append, Option.mem_def.1 hd]
    rfl
  · cases h

end Number

end Worksheet
