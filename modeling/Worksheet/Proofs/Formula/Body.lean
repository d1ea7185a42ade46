import Worksheet.Proofs.Address.Following
import Worksheet.Proofs.Formula.Leaf
import Worksheet.Proofs.Number.Literal

/-!
# Operands in a Text That Follows

What a run of gathered characters means in a text that follows another one.

The words of a text follow the words of the other one by one, but a run may
hold several words with characters like a point or a dollar sign between them.
There are three cases. The runs agree and spell no cell. They are one word
each, a cell and the moved cell. Or a cell stands in a run together with
something else, and then neither run means anything: it is no number, because
of the character that sets the cell off, no truth value, no sentinel, no cell
and no function, and all of that can be seen without knowing which cell it is.

The third case is what `Junk` describes. It is stable under adding characters,
so runs can be followed while they grow.

## Main definitions

* `Junk`: A run that means nothing because of what stands beside a cell.
* `BodyFollows`: The three cases.
* `NameFollows`: Names of functions that agree or are both unknown.
* `Docks`: A word may begin after a run.

## Theorems

* `Junk.meaning_eq`: What a run that means nothing evaluates to.
* `BodyFollows.meaning_eq`: Runs that follow have the same meaning, moved.
* `BodyFollows.snoc`, `BodyFollows.append`: Runs are followed while they grow.
-/

namespace Worksheet

namespace Formula

/-- A letter or a digit. -/
def isAlnum (c : Char) : Bool := Text.isLetter c || Text.isDigit c

/-- A character that sets a cell off: no letter, no digit and no point. -/
def isStray (c : Char) : Bool := !Text.isLetter c && !Text.isDigit c && c != '.'

/-- Does the run begin like a number? -/
def startsNumber (body : List Char) : Bool :=
  body.head?.any fun c => Text.isDigit c || c == '.'

/-- Letters and digits gather. -/
theorem isGathered_of_isAlnum {c : Char} (h : isAlnum c = true) : isGathered c = true := by
  rw [isAlnum, Bool.or_eq_true] at h
  rcases h with h | h
  · exact isGathered_of_isLetter h
  · exact isGathered_of_isDigit h

/-- Reading a cell from characters. -/
theorem ofText?_ofList (cs : List Char) :
    CellRef.ofText? (String.ofList cs) = CellRef.ofChars? cs := by
  rw [CellRef.ofText?, String.toList_ofList]

/-! ## Cells -/

/-- What is outside words is no letter and no digit. -/
theorem isAlnum_of_isWord {c : Char} (h : Text.isWord c = false) : isAlnum c = false := by
  unfold Text.isWord at h
  by_cases hc : c.toNat < 128
  · rw [if_pos hc, Bool.or_eq_false_iff] at h
    exact h.1
  · cases ha : isAlnum c with
    | false => rfl
    | true =>
      rw [isAlnum, Bool.or_eq_true, Text.isLetter_iff, Text.isDigit_iff] at ha
      omega

/-- A run with a character that is neither a letter nor a digit spells no cell. -/
theorem ofChars?_eq_none_of_mem {cs : List Char} {d : Char} (hd : d ∈ cs) (h : isAlnum d = false) :
    CellRef.ofChars? cs = none := by
  cases hcell : CellRef.ofChars? cs with
  | none => rfl
  | some r =>
    rcases CellRef.ofChars?_eq_some_iff.1 hcell with ⟨letters, digits, rfl, hs⟩
    rw [isAlnum, Bool.or_eq_false_iff] at h
    rw [List.mem_append] at hd
    rcases hd with hd | hd
    · rw [hs.isLetter d hd] at h
      exact absurd h.1 (by simp)
    · rw [hs.isDigit d hd] at h
      exact absurd h.2 (by simp)

/-- A cell begins with a letter. -/
theorem cell_head {w : List Char} {c : CellRef} (h : CellRef.ofChars? w = some c) :
    ∃ d ∈ w.head?, Text.isLetter d = true := by
  rcases CellRef.ofChars?_eq_some_iff.1 h with ⟨letters, digits, rfl, hs⟩
  rcases List.exists_cons_of_ne_nil hs.letters_ne_nil with ⟨l, ls, rfl⟩
  exact ⟨l, by simp, hs.isLetter l (by simp)⟩

/-- A cell consists of letters and digits. -/
theorem cell_isAlnum {w : List Char} {c : CellRef} (h : CellRef.ofChars? w = some c) :
    ∀ d ∈ w, isAlnum d = true := by
  intro d hd
  cases ha : isAlnum d with
  | true => rfl
  | false =>
    rw [ofChars?_eq_none_of_mem hd ha] at h
    exact absurd h (by simp)

/-! ## Runs without a meaning -/

/-- A run without a meaning: it begins with a letter and has a character that
    belongs to no cell, or a digit comes after a character that belongs to no
    number. -/
structure Junk (body : List Char) : Prop where
  gathered : ∀ c ∈ body, isGathered c = true
  broken : (∃ c cs, body = c :: cs ∧ Text.isLetter c = true ∧ ∃ d ∈ cs, isAlnum d = false) ∨
    ∃ p c q, body = p ++ c :: q ∧ isStray c = true ∧ ∃ d ∈ q, Text.isDigit d = true

/-- Something in such a run is neither a letter nor a digit. -/
theorem Junk.exists_not_isAlnum {body : List Char} (h : Junk body) :
    ∃ c ∈ body, isAlnum c = false := by
  rcases h.broken with ⟨c, cs, rfl, -, d, hd, hstray⟩ | ⟨p, c, q, rfl, hstray, -⟩
  · exact ⟨d, by simp [hd], hstray⟩
  · refine ⟨c, by simp, ?_⟩
    simp only [isStray, Bool.and_eq_true, Bool.not_eq_true'] at hstray
    simp [isAlnum, hstray]

/-- Such a run is not empty. -/
theorem Junk.ne_nil {body : List Char} (h : Junk body) : body ≠ [] := by
  rcases h.exists_not_isAlnum with ⟨c, hc, -⟩
  exact List.ne_nil_of_mem hc

/-- Such a run is no text of letters and digits. -/
theorem Junk.ne_of_alnum {body w : List Char} (h : Junk body) (hw : w.all isAlnum = true) :
    body ≠ w := by
  rintro rfl
  rcases h.exists_not_isAlnum with ⟨c, hc, hstray⟩
  rw [List.all_eq_true.1 hw c hc] at hstray
  exact absurd hstray (by simp)

/-- It spells no cell. -/
theorem Junk.ofChars?_eq_none {body : List Char} (h : Junk body) :
    CellRef.ofChars? body = none := by
  rcases h.exists_not_isAlnum with ⟨c, hc, hstray⟩
  exact ofChars?_eq_none_of_mem hc hstray

/-- It names no function. -/
theorem Junk.ofName?_eq_none {body : List Char} (h : Junk body) :
    Function.ofName? (String.ofList body) = none := by
  cases hf : Function.ofName? (String.ofList body) with
  | none => rfl
  | some f =>
    have hname : f.name = String.ofList body := by
      have := List.find?_some hf
      simpa using this
    have hbody : body = f.name.toList := by rw [hname, String.toList_ofList]
    exact absurd hbody (h.ne_of_alnum (by cases f <;> decide))

/-- It shows no failure. -/
theorem Junk.ofSentinel?_eq_none {body : List Char} (h : Junk body) :
    Failure.ofSentinel? (String.ofList body) = none := by
  cases he : Failure.ofSentinel? (String.ofList body) with
  | none => rfl
  | some e =>
    have hname : e.sentinel = String.ofList body := by
      have := List.find?_some he
      simpa using this
    have hbody : body = e.sentinel.toList := by rw [hname, String.toList_ofList]
    -- Four sentinels have no digit and begin with no letter, and the fifth has a slash.
    exfalso
    by_cases hslash : '/' ∈ body
    · exact absurd (h.gathered _ hslash) (by decide)
    · have hdigit : e.sentinel.toList.any Text.isDigit = false := by
        rw [hbody] at hslash
        cases e <;> first | rfl | exact absurd (by decide) hslash
      have hhead : e.sentinel.toList.head? = some '#' := by cases e <;> rfl
      rw [← hbody] at hdigit hhead
      rcases h.broken with ⟨c, cs, rfl, hletter, -⟩ | ⟨p, c, q, rfl, -, d, hd, hd'⟩
      · rw [List.head?_cons, Option.some.injEq] at hhead
        subst hhead
        exact absurd hletter (by decide)
      · rw [List.any_eq_false] at hdigit
        exact hdigit d (by simp [hd]) hd'

/-- If it begins like a number, it is none. -/
theorem Junk.ofText?_eq_none {body : List Char} (h : Junk body)
    (hnumber : startsNumber body = true) :
    Number.ofText? (String.ofList body) = none := by
  rw [Number.ofText?, String.toList_ofList]
  cases hread : Number.Literal.read? (Text.trimChars body) with
  | none => rfl
  | some l =>
    exfalso
    rcases h.broken with ⟨c, cs, rfl, hletter, -⟩ | ⟨p, c, q, rfl, hstray, d, hd, hdigit⟩
    · rw [startsNumber, List.head?_cons, Option.any_some, Bool.or_eq_true, beq_iff_eq] at hnumber
      rcases hnumber with hdigit | rfl
      · rw [Text.isDigit_of_isLetter hletter] at hdigit
        exact absurd hdigit (by simp)
      · exact absurd hletter (by decide)
    -- The number begins in front of the stray character and the digit stands behind it, so
    -- trimming keeps the character, and no literal has such a one.
    · have hmem : c ∈ Text.trimChars (p ++ c :: q) := by
        refine Text.mem_trimChars hd (Text.not_isBlank_of_isDigit hdigit) fun e he => ?_
        rw [Option.mem_def] at he
        rw [startsNumber, he, Option.any_some, Bool.or_eq_true, beq_iff_eq] at hnumber
        rcases hnumber with h | rfl
        · exact Text.not_isBlank_of_isDigit h
        · decide
      have hliteral := Number.isLiteral_of_read? hread c hmem
      have hgathered := isGathered_iff.1 (h.gathered c (by simp))
      simp only [isStray, Bool.and_eq_true, Bool.not_eq_true', bne_iff_ne, ne_eq] at hstray
      simp only [Number.isLiteral, Bool.or_eq_true, beq_iff_eq] at hliteral
      rcases hliteral with ((((hl | hl) | hl) | hl) | hl) | hl
      · rw [hstray.1.2] at hl
        exact absurd hl (by simp)
      · exact hstray.2 hl
      · subst hl
        exact absurd hstray.1.1 (by decide)
      · subst hl
        exact absurd hstray.1.1 (by decide)
      · exact hgathered.2.2.2.1 hl
      · exact hgathered.2.2.1 hl

/-- It evaluates to a failure that only depends on how it begins. -/
theorem Junk.meaning_eq {body : List Char} (h : Junk body) :
    meaning (String.ofList body) =
      .value (.failure (if startsNumber body then .value else .name)) := by
  -- The readings are gone through in their order. Each needs letters and digits only, or
  -- a beginning that the run does not have.
  rcases h.exists_not_isAlnum with ⟨c, hc, -⟩
  have hword {w : String} (hw : w.toList.all isAlnum = true) : String.ofList body ≠ w := by
    rintro rfl
    rw [String.toList_ofList] at hw
    exact h.ne_of_alnum hw rfl
  unfold meaning
  rw [String.toList_ofList]
  cases hbody : body with
  | nil =>
    rw [hbody] at hc
    exact absurd hc (by simp)
  | cons d ds =>
    rw [← hbody]
    have hstart : startsNumber body = (Text.isDigit d || d == '.') := by rw [hbody]; rfl
    rw [show body.head? = some d by rw [hbody]; rfl]
    simp only
    rw [← hstart]
    by_cases hnumber : startsNumber body = true
    · rw [if_pos hnumber, if_pos hnumber, h.ofText?_eq_none hnumber]
    · rw [if_neg hnumber, if_neg hnumber, if_neg (hword (by decide)), if_neg (hword (by decide)),
        h.ofSentinel?_eq_none]
      simp only [CellRef.ofText?, String.toList_ofList, h.ofChars?_eq_none]

/-- It stays without a meaning when characters are added. -/
theorem Junk.append {body ds : List Char} (h : Junk body) (hds : ∀ d ∈ ds, isGathered d = true) :
    Junk (body ++ ds) := by
  refine ⟨fun c hc => ?_, ?_⟩
  · rw [List.mem_append] at hc
    rcases hc with hc | hc
    · exact h.gathered c hc
    · exact hds c hc
  · rcases h.broken with ⟨c, cs, rfl, hletter, d, hd, hstray⟩ |
      ⟨p, c, q, rfl, hstray, d, hd, hdigit⟩
    · exact .inl ⟨c, cs ++ ds, rfl, hletter, d, by simp [hd], hstray⟩
    · exact .inr ⟨p, c, q ++ ds, by simp, hstray, d, by simp [hd], hdigit⟩

/-- How a run begins does not change when characters are added. -/
theorem startsNumber_append {body ds : List Char} (h : body ≠ []) :
    startsNumber (body ++ ds) = startsNumber body := by
  cases body with
  | nil => exact absurd rfl h
  | cons c cs => rfl

/-- A cell with a character outside words after it has no meaning. -/
theorem junk_of_cell {body : List Char} {c : CellRef} (h : CellRef.ofChars? body = some c)
    {d : Char}
    (hd : isGathered d = true) (hstray : isAlnum d = false) :
    Junk (body ++ [d]) ∧ startsNumber (body ++ [d]) = false := by
  rcases CellRef.ofChars?_eq_some_iff.1 h with ⟨letters, digits, rfl, hs⟩
  rcases List.exists_cons_of_ne_nil hs.letters_ne_nil with ⟨l, ls, rfl⟩
  have hl := hs.isLetter l (by simp)
  refine ⟨⟨fun e he => ?_, .inl ⟨l, ls ++ digits ++ [d], by simp, hl, d, by simp, hstray⟩⟩, ?_⟩
  · simp only [List.mem_append, List.mem_singleton] at he
    rcases he with (he | he) | rfl
    · exact isGathered_of_isLetter (hs.isLetter e he)
    · exact isGathered_of_isDigit (hs.isDigit e he)
    · exact hd
  · rw [List.cons_append, List.cons_append, startsNumber, List.head?_cons, Option.any_some,
      Text.isDigit_of_isLetter hl, Bool.false_or, beq_eq_false_iff_ne]
    rintro rfl
    exact absurd hl (by decide)

/-- A cell with something before it that sets it off has no meaning. -/
theorem junk_of_stray {body w : List Char} {c : CellRef} {d : Char}
    (hbody : ∀ e ∈ body ++ [d], isGathered e = true) (hd : isStray d = true)
    (h : CellRef.ofChars? w = some c) : Junk (body ++ [d] ++ w) := by
  rcases CellRef.ofChars?_eq_some_iff.1 h with ⟨letters, digits, rfl, hs⟩
  rcases List.exists_mem_of_ne_nil _ hs.digits_ne_nil with ⟨e, he⟩
  refine ⟨fun x hx => ?_,
    .inr ⟨body, d, letters ++ digits, by simp, hd, e, by simp [he], hs.isDigit e he⟩⟩
  rw [List.mem_append, List.mem_append (s := letters)] at hx
  rcases hx with hx | hx | hx
  · exact hbody x hx
  · exact isGathered_of_isLetter (hs.isLetter x hx)
  · exact isGathered_of_isDigit (hs.isDigit x hx)

/-! ## Runs that follow -/

variable {move : CellRef → CellRef}

/-- A run follows another one: they agree and spell no cell, they are a cell and
    the moved cell, or they have no meaning and begin alike. -/
inductive BodyFollows (move : CellRef → CellRef) : List Char → List Char → Prop where
  | same {body : List Char} (h : CellRef.ofChars? body = none) : BodyFollows move body body
  | cell {body body' : List Char} {c : CellRef} (h : CellRef.ofChars? body = some c)
    (h' : CellRef.ofChars? body' = some (move c)) : BodyFollows move body body'
  | junk {body body' : List Char} (h : Junk body) (h' : Junk body')
    (hstart : startsNumber body' = startsNumber body) : BodyFollows move body body'

/-- A run that follows has the same meaning, with the cell moved. -/
theorem BodyFollows.meaning_eq {body body' : List Char} (h : BodyFollows move body body') :
    meaning (String.ofList body') = (meaning (String.ofList body)).map move := by
  cases h with
  | same h =>
    cases hm : meaning (String.ofList body) with
    | value v => rfl
    | cell c =>
      rw [meaning_eq_cell_iff, ofText?_ofList, h] at hm
      exact absurd hm (by simp)
  | cell h h' =>
    rw [← ofText?_ofList, ← meaning_eq_cell_iff] at h h'
    rw [h, h']
    rfl
  | junk h h' hstart =>
    rw [h.meaning_eq, h'.meaning_eq, hstart]
    rfl

/-- A run that follows is empty exactly when the other one is. -/
theorem BodyFollows.eq_nil_iff {body body' : List Char} (h : BodyFollows move body body') :
    body = [] ↔ body' = [] := by
  have hcell {cs : List Char} {c : CellRef} (h : CellRef.ofChars? cs = some c) : cs ≠ [] := by
    rintro rfl
    have hnone : CellRef.ofChars? [] = none := by decide
    rw [hnone] at h
    exact absurd h (by simp)
  cases h with
  | same h => exact Iff.rfl
  | cell h h' => exact iff_of_false (hcell h) (hcell h')
  | junk h h' => exact iff_of_false h.ne_nil h'.ne_nil

/-- Two names are the same, or neither names a function. -/
def NameFollows (name name' : String) : Prop :=
  name' = name ∨ Function.ofName? name = none ∧ Function.ofName? name' = none

/-- Runs still follow after a character outside words. -/
theorem BodyFollows.snoc {body body' : List Char} (h : BodyFollows move body body') {d : Char}
    (hd : isGathered d = true) (hstray : isAlnum d = false) :
    BodyFollows move (body ++ [d]) (body' ++ [d]) := by
  cases h with
  | same h =>
    have hmem : d ∈ body ++ [d] := by simp
    exact .same (ofChars?_eq_none_of_mem hmem hstray)
  | cell h h' =>
    rcases junk_of_cell h hd hstray with ⟨hj, hs⟩
    rcases junk_of_cell h' hd hstray with ⟨hj', hs'⟩
    exact .junk hj hj' (hs'.trans hs.symm)
  | junk h h' hstart =>
    have hds : ∀ e ∈ [d], isGathered e = true := by simpa using hd
    refine .junk (h.append hds) (h'.append hds) ?_
    rw [startsNumber_append h.ne_nil, startsNumber_append h'.ne_nil, hstart]

/-- A word may begin after a run: the run ends outside words, and not with a
    point if the word begins with a letter. -/
def Docks (body w : List Char) : Prop :=
  ∀ d ∈ body.getLast?, isAlnum d = false ∧ (d = '.' → ∀ e ∈ w.head?, Text.isLetter e = false)

/-- A run after which a word may begin is no cell. -/
theorem ne_cell_of_docks {body w : List Char} {c : CellRef} (h : Docks body w)
    (hcell : CellRef.ofChars? body = some c) : False := by
  have hne : body ≠ [] := by
    rintro rfl
    have hnone : CellRef.ofChars? [] = none := by decide
    rw [hnone] at hcell
    exact absurd hcell (by simp)
  have hlast := (h _ (List.getLast?_eq_some_getLast hne)).1
  rw [cell_isAlnum hcell _ (List.getLast_mem hne)] at hlast
  exact absurd hlast (by simp)

/-- Runs still follow after words that follow. -/
theorem BodyFollows.append {body body' w w' : List Char} (h : BodyFollows move body body')
    (hbody : ∀ c ∈ body, isGathered c = true) (hw : ∀ c ∈ w, isGathered c = true)
    (hw' : ∀ c ∈ w', isGathered c = true) (hword : Address.WordFollows move w w')
    (hdocks : Docks body w) : BodyFollows move (body ++ w) (body' ++ w') := by
  cases h with
  | cell h h' => exact (ne_cell_of_docks hdocks h).elim
  | junk h h' hstart =>
    refine .junk (h.append hw) (h'.append hw') ?_
    rw [startsNumber_append h.ne_nil, startsNumber_append h'.ne_nil, hstart]
  | same h =>
    -- In an empty run the word stands alone. Otherwise the last character sets it off.
    rcases List.eq_nil_or_concat body with rfl | ⟨init, d, hinit⟩
    · rcases hword with ⟨hnone, rfl⟩ | ⟨c, hc, hc'⟩
      · exact .same hnone
      · exact .cell hc hc'
    · rw [List.concat_eq_append] at hinit
      subst hinit
      rcases hdocks d (by simp) with ⟨hstray, hpoint⟩
      rcases hword with ⟨hnone, rfl⟩ | ⟨c, hc, hc'⟩
      · exact .same (ofChars?_eq_none_of_mem (d := d) (by simp) hstray)
      · have hd : isStray d = true := by
          rcases cell_head hc with ⟨e, he, hletter⟩
          rw [isAlnum, Bool.or_eq_false_iff] at hstray
          have hne : d ≠ '.' := by
            intro hd
            rw [hpoint hd e he] at hletter
            exact absurd hletter (by simp)
          simp [isStray, hstray, hne]
        have hnil : init ++ [d] ≠ [] := by simp
        exact .junk (junk_of_stray hbody hd hc) (junk_of_stray hbody hd hc')
          ((startsNumber_append hnil).trans (startsNumber_append hnil).symm)

/-- With a word after them that is the same in both, runs that follow are the
    same names, or neither is one. -/
theorem BodyFollows.names {body body' w : List Char} (h : BodyFollows move body body')
    (hw : ∀ c ∈ w, isGathered c = true) (hdocks : Docks body w) :
    NameFollows (String.ofList (body ++ w)) (String.ofList (body' ++ w)) := by
  cases h with
  | same h => exact .inl rfl
  | cell h h' => exact (ne_cell_of_docks hdocks h).elim
  | junk h h' hstart => exact .inr ⟨(h.append hw).ofName?_eq_none, (h'.append hw).ofName?_eq_none⟩

end Formula

end Worksheet
