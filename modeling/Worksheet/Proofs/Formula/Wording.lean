import Worksheet.Proofs.Formula.Body

/-!
# Two Readings of One Text

A formula is read by two readers that cut it in different ways.

The one that moves references looks for words: runs of word characters, outside
quotes, with nothing but the next character in view. The one that converts the
formula gathers characters into runs. It passes over spaces, puts a point into a
run, takes a name up to its parenthesis, and writes everything in capitals. What
the first calls a reference need not be what the second calls one.

`Aligned` says where they agree about names and numbers. Three things stand in the
way. Two words with spaces between them are one run. A point and an exponent behind
it are one number, although the exponent alone may be a reference. And a run before
a parenthesis is the name of a call, even where spaces stand between the two.

What rewriting makes of such a text is then a text that has the same characters
outside words, and instead of a word another one that is no more a number in its
run than the word is. Only this is needed to read the two side by side.

## Main definitions

* `next?`: The next character that is not a space.
* `opensCall`: A name of a call goes on here.
* `namedReferences`: References in the names of calls.
* `Aligned`: Texts that both readers cut alike.
* `Worded`: A run with a letter that no number has there.
* `Replaces`, `Becomes`: What may stand in place of a word.
* `Rewritten`: What may stand in place of a text.

## Theorems

* `Worded.ofText?_eq_none`: Such a run is no number.
* `rewritten_joinWith`: Rewriting an aligned text.
-/

namespace Worksheet

namespace Formula

open Address (Piece outside piecesFrom joinWith operandsOf isReference)

/-! ## Aligned texts -/

/-- The next character that is not a space. -/
def next? (cs : List Char) : Option Char := (cs.dropWhile (· == ' ')).head?

/-- Do characters that gather, and spaces, lead to an opening parenthesis? Then what
    stands before them is in the name of a call. -/
def opensCall : List Piece → Bool
  | [] => false
  | .word _ :: ps => opensCall ps
  | .plain c :: ps => c == '(' || (isGathered c || c == ' ') && opensCall ps

/-- The references in the names of calls. A reference directly before its parenthesis
    is not counted, because it is taken for a name by both readers. -/
def namedReferences : List Piece → List (List Char)
  | [] => []
  | .word _ :: .plain '(' :: ps => namedReferences ps
  | .word run :: ps =>
    if isReference run && opensCall ps then run :: namedReferences ps else namedReferences ps
  | .plain _ :: ps => namedReferences ps

/-- A text in which, outside quotes, no spaces stand between two letters or digits, no
    point stands before the letter E, and no reference is in the name of a call. -/
structure Aligned (quoted : Bool) (cs : List Char) : Prop where
  no_gap : ∀ c t, c :: ' ' :: t <:+ outside quoted cs → isAlnum c = true →
    ∀ d ∈ next? t, isAlnum d = false
  no_exponent : ∀ t, '.' :: t <:+ outside quoted cs → ∀ d ∈ next? t, Text.upper d ≠ 'E'
  no_named : namedReferences (piecesFrom quoted cs) = []

/-- A text without spaces and points is aligned, if no reference is in the name of a
    call. -/
theorem aligned_of_plain {quoted : Bool} {cs : List Char} (hspace : ' ' ∉ outside quoted cs)
    (hpoint : '.' ∉ outside quoted cs) (hnamed : namedReferences (piecesFrom quoted cs) = []) :
    Aligned quoted cs where
  no_gap c t h := absurd (h.subset (by simp)) hspace
  no_exponent t h := absurd (h.subset (by simp)) hpoint
  no_named := hnamed

/-- The rest of an aligned text is aligned. -/
theorem Aligned.of_suffix {quoted quoted' : Bool} {cs cs' : List Char}
    (h : Aligned quoted cs) (hsuffix : outside quoted' cs' <:+ outside quoted cs)
    (hnamed : namedReferences (piecesFrom quoted' cs') = []) : Aligned quoted' cs' where
  no_gap c t ht := h.no_gap c t (ht.trans hsuffix)
  no_exponent t ht := h.no_exponent t (ht.trans hsuffix)
  no_named := hnamed

/-- The next character is the same inside the characters outside quotes. -/
theorem next?_outside (cs : List Char) : next? (outside false cs) = next? cs := by
  unfold next?
  induction cs with
  | nil => rfl
  | cons c cs ih =>
    rw [outside, if_neg (by decide)]
    by_cases hc : c = ' '
    · subst hc
      exact ih
    · rw [List.dropWhile_cons_of_neg (by simpa using hc),
        List.dropWhile_cons_of_neg (by simpa using hc)]
      rfl

/-- A character other than a space is the next one. -/
theorem next?_cons {c : Char} (cs : List Char) (h : c ≠ ' ') : next? (c :: cs) = some c := by
  rw [next?, List.dropWhile_cons_of_neg (by simpa using h)]
  rfl

/-- A name does not go on at a quote or an operator. -/
theorem opensCall_plain {c : Char} (cs : List Char) (hword : Text.isWord c = false) :
    opensCall (piecesFrom false (c :: cs)) =
      (c == '(' || (isGathered c || c == ' ') && opensCall (piecesFrom false cs)) := by
  rw [Address.piecesFrom_plain cs hword, opensCall]
  by_cases hc : c = '"'
  · subst hc
    rfl
  · rw [show (c == '"') = false by simpa using hc]

/-- A word does not end a name. -/
theorem opensCall_word {w cs : List Char} (hne : w ≠ []) (hw : ∀ c ∈ w, Text.isWord c = true)
    (hcs : ∀ c ∈ cs.head?, Text.isWord c = false) :
    opensCall (piecesFrom false (w ++ cs)) = opensCall (piecesFrom false cs) := by
  rw [Address.piecesFrom_word hne hw hcs, opensCall]

/-- A word that is no name is counted if it is a reference in the name of a call. -/
theorem namedReferences_word {w cs : List Char}
    (hnext : ∀ c ∈ cs.head?, Text.isWord c = false ∧ c ≠ '(') :
    namedReferences (.word w :: piecesFrom false cs) =
      if isReference w && opensCall (piecesFrom false cs) then
        w :: namedReferences (piecesFrom false cs)
      else namedReferences (piecesFrom false cs) := by
  rw [namedReferences]
  exact fun ps hps => Address.piecesFrom_ne_paren hnext ps hps

theorem outside_suffix_word {w cs : List Char} (hw : ∀ c ∈ w, Text.isWord c = true) :
    outside false cs <:+ outside false (w ++ cs) := by
  rw [Address.outside_word _ hw]
  exact List.suffix_append _ _

/-! ## Runs that are no numbers -/

/-- A run with a letter that no number has there: it stands behind no digit, and if it
    stands behind a point, it is no exponent. -/
def Worded (body : List Char) : Prop :=
  ∃ p c q, body = p ++ c :: q ∧ Text.isLetter c = true ∧
    ∀ d ∈ p.getLast?, isAlnum d = false ∧ (d = '.' → Text.upper c ≠ 'E')

namespace Worded

variable {body : List Char}

theorem ne_nil (h : Worded body) : body ≠ [] := by
  obtain ⟨p, c, q, rfl, -⟩ := h
  simp

/-- It stays so when characters are added. -/
theorem append (h : Worded body) (ds : List Char) : Worded (body ++ ds) := by
  obtain ⟨p, c, q, rfl, hletter, hlast⟩ := h
  exact ⟨p, c, q ++ ds, by simp, hletter, hlast⟩

/-- A text that begins with a letter is one. -/
theorem of_letter {c : Char} (cs : List Char) (h : Text.isLetter c = true) : Worded (c :: cs) :=
  ⟨[], c, cs, rfl, h, nofun⟩

/-- Such a run is no number, with a sign or without. -/
theorem ofText?_eq_none (h : Worded body) (negative : Bool) :
    Number.ofText? (String.ofList (signChars negative ++ body)) = none := by
  obtain ⟨p, c, q, rfl, hletter, hlast⟩ := h
  cases hread : Number.ofText? (String.ofList (signChars negative ++ (p ++ c :: q))) with
  | none => rfl
  | some x =>
    exfalso
    rw [← List.append_assoc] at hread
    obtain ⟨hexponent, d, hd, hdigit⟩ := Number.letter_of_ofText? hread hletter
    rw [List.getLast?_append] at hd
    cases hp : p.getLast? with
    | some e =>
      rw [hp, Option.some_or, Option.mem_some_iff] at hd
      subst hd
      obtain ⟨halnum, hpoint⟩ := hlast e hp
      rcases hdigit with hdigit | hdigit
      · rw [isAlnum, hdigit, Bool.or_true] at halnum
        cases halnum
      · exact hpoint hdigit hexponent
    | none =>
      -- In front of the letter there is at most the sign.
      rw [hp, Option.none_or] at hd
      cases negative with
      | true =>
        obtain rfl : '-' = d := by simpa [signChars] using hd
        rcases hdigit with hdigit | hdigit <;> exact absurd hdigit (by decide)
      | false => simp [signChars] at hd

end Worded

/-! ## Words and texts -/

/-- What may stand in place of a word: the word itself, or instead of a cell a text that
    begins with the same letter, or the sign that the reference was lost. -/
inductive Replaces (w : List Char) : List Char → Prop where
  | same : Replaces w w
  | moved {cell : CellRef} {c c' : Char} {cs cs' : List Char} (h : CellRef.ofChars? w = some cell)
    (hw : w = c :: cs) (hfirst : Text.upper c' = Text.upper c)
    (halnum : ∀ d ∈ c' :: cs', isAlnum d = true) : Replaces w (c' :: cs')
  | lost {cell : CellRef} (h : CellRef.ofChars? w = some cell) : Replaces w Address.lostReference

namespace Replaces

variable {w w' : List Char}

theorem ne_nil (h : Replaces w w') (hne : w ≠ []) : w' ≠ [] := by
  cases h with
  | same => exact hne
  | moved => exact List.cons_ne_nil _ _
  | lost => exact List.cons_ne_nil _ _

/-- What stands in place of a word gathers. -/
theorem gathered (h : Replaces w w') (hw : ∀ c ∈ w, Text.isWord c = true) :
    ∀ c ∈ w', isGathered c = true := by
  cases h with
  | same => exact fun c hc => isGathered_of_isWord (hw c hc)
  | moved _ _ _ halnum => exact fun c hc => isGathered_of_isAlnum (halnum c hc)
  | lost => exact List.all_eq_true.1 (by decide)

/-- No point stands in place of a word. -/
theorem point_not_mem (h : Replaces w w') (hw : ∀ c ∈ w, Text.isWord c = true) : '.' ∉ w' := by
  cases h with
  | same => exact fun hmem => absurd (hw _ hmem) (by decide)
  | moved _ _ _ halnum => exact fun hmem => absurd (halnum _ hmem) (by decide)
  | lost => decide

/-- A word that is replaced ends with a letter or a digit, so what stands in its place is
    followed by none, if the word is. -/
theorem gap (h : Replaces w w') {P : Prop} (hne : w ≠ [])
    (hgap : ∀ c ∈ w.getLast?, isAlnum c = true → P) :
    ∀ c ∈ w'.getLast?, isAlnum c = true → P := by
  have hcell {cell : CellRef} (hcell : CellRef.ofChars? w = some cell) : P :=
    hgap _ (List.getLast?_eq_some_getLast hne) (cell_isAlnum hcell _ (List.getLast_mem hne))
  cases h with
  | same => exact hgap
  | moved h => exact fun _ _ _ => hcell h
  | lost h => exact fun _ _ _ => hcell h

end Replaces

/-- A word is replaced, but not in the name of a call. If cells are looked at, it is
    replaced by the moved cell. -/
structure Becomes (cells : Bool) (move : CellRef → CellRef) (named : Bool)
    (w w' : List Char) : Prop where
  replaces : Replaces w w'
  same : named = true → w' = w
  moves : named = false → cells = true → CellRef.ofChars? w' = (CellRef.ofChars? w).map move

/-- What may stand in place of an aligned text. In the names of calls nothing is replaced.
    If cells are looked at, there are no ranges. -/
inductive Rewritten (cells : Bool) (move : CellRef → CellRef) :
    Bool → List Char → List Char → Prop where
  | nil (quoted : Bool) : Rewritten cells move quoted [] []
  | quoted {c : Char} {cs cs' : List Char} :
    Rewritten cells move (c != '"') cs cs' → Rewritten cells move true (c :: cs) (c :: cs')
  | plain {c : Char} {cs cs' : List Char} (hword : Text.isWord c = false)
    (hcolon : cells = true → c ≠ ':') (hpoint : c = '.' → ∀ d ∈ next? cs, Text.upper d ≠ 'E') :
    Rewritten cells move (c == '"') cs cs' → Rewritten cells move false (c :: cs) (c :: cs')
  | word {w w' cs cs' : List Char} (hne : w ≠ []) (hw : ∀ c ∈ w, Text.isWord c = true)
    (hnext : ∀ c ∈ cs.head?, Text.isWord c = false)
    (hgap : ∀ c ∈ w.getLast?, isAlnum c = true → ∀ d ∈ next? cs, isAlnum d = false)
    (h : Becomes cells move (opensCall (piecesFrom false cs)) w w') :
    Rewritten cells move false cs cs' → Rewritten cells move false (w ++ cs) (w' ++ cs')

/-- A text in which words may be replaced: it is aligned, and if cells are looked at, then
    it has no colon and every word that is no name is replaced by the moved cell. -/
structure Replaceable (cells : Bool) (move : CellRef → CellRef) (f : List Char → List Char)
    (quoted : Bool) (cs : List Char) : Prop where
  aligned : Aligned quoted cs
  no_colon : cells = true → ':' ∉ cs
  operands : cells = true → ∀ w ∈ operandsOf (piecesFrom quoted cs),
    CellRef.ofChars? (if isReference w then f w else w) = (CellRef.ofChars? w).map move

namespace Replaceable

variable {cells : Bool} {move : CellRef → CellRef} {f : List Char → List Char}
  {w cs : List Char} {c : Char}

theorem no_colon_suffix (h : Replaceable cells move f false (w ++ cs)) :
    cells = true → ':' ∉ cs :=
  fun hcells hmem => h.no_colon hcells (List.mem_append_right _ hmem)

theorem quoted (h : Replaceable cells move f true (c :: cs)) :
    Replaceable cells move f (c != '"') cs where
  aligned := by
    refine h.aligned.of_suffix (Address.outside_quoted c cs) ?_
    have hnamed := h.aligned.no_named
    rwa [piecesFrom, if_pos rfl, namedReferences] at hnamed
  no_colon hcells hmem := h.no_colon hcells (List.mem_cons_of_mem _ hmem)
  operands hcells := by
    have hoperands := h.operands hcells
    rwa [piecesFrom, if_pos rfl, operandsOf] at hoperands

theorem plain (h : Replaceable cells move f false (c :: cs)) (hc : Text.isWord c = false) :
    Replaceable cells move f (c == '"') cs where
  aligned := by
    refine h.aligned.of_suffix ?_ ?_
    · rw [outside, if_neg (by decide)]
      exact List.suffix_cons _ _
    · have hnamed := h.aligned.no_named
      rwa [Address.piecesFrom_plain cs hc, namedReferences] at hnamed
  no_colon hcells hmem := h.no_colon hcells (List.mem_cons_of_mem _ hmem)
  operands hcells := by
    have hoperands := h.operands hcells
    rwa [Address.piecesFrom_plain cs hc, operandsOf] at hoperands

/-- A word directly before a parenthesis is a name, and stays. -/
theorem name {rest : List Char} (h : Replaceable cells move f false (w ++ '(' :: rest))
    (hne : w ≠ []) (hw : ∀ c ∈ w, Text.isWord c = true) :
    Replaceable cells move f false ('(' :: rest) ∧
      Becomes cells move (opensCall (piecesFrom false ('(' :: rest))) w w ∧
      joinWith f (piecesFrom false (w ++ '(' :: rest)) =
        w ++ joinWith f (piecesFrom false ('(' :: rest)) := by
  have hnamed := h.aligned.no_named
  have hoperands := h.operands
  have hrest : piecesFrom false ('(' :: rest) = .plain '(' :: piecesFrom false rest :=
    Address.piecesFrom_plain rest (by decide)
  rw [Address.piecesFrom_name rest hne hw, namedReferences] at hnamed
  rw [Address.piecesFrom_name rest hne hw, operandsOf] at hoperands
  have hopens : opensCall (piecesFrom false ('(' :: rest)) = true := by
    rw [hrest]
    rfl
  refine ⟨⟨h.aligned.of_suffix (outside_suffix_word hw) ?_, h.no_colon_suffix, fun hcells => ?_⟩,
    ⟨.same, fun _ => rfl, fun hclosed => ?_⟩, ?_⟩
  · rw [hrest, namedReferences, hnamed]
  · rw [hrest, operandsOf]
    exact hoperands hcells
  · rw [hopens] at hclosed
    cases hclosed
  · rw [Address.piecesFrom_name rest hne hw, hrest]
    rfl

/-- Any other word is replaced if it has the shape of a reference, and then it is not in
    the name of a call. -/
theorem operand (h : Replaceable cells move f false (w ++ cs)) (hne : w ≠ [])
    (hw : ∀ c ∈ w, Text.isWord c = true)
    (hnext : ∀ c ∈ cs.head?, Text.isWord c = false ∧ c ≠ '(')
    (hf : ∀ w, isReference w = true → Replaces w (f w)) :
    Replaceable cells move f false cs ∧
      Becomes cells move (opensCall (piecesFrom false cs)) w (if isReference w then f w else w) ∧
      joinWith f (piecesFrom false (w ++ cs)) =
        (if isReference w then f w else w) ++ joinWith f (piecesFrom false cs) := by
  have hnamed := h.aligned.no_named
  have hoperands := h.operands
  have hpieces := Address.piecesFrom_word hne hw fun c hc => (hnext c hc).1
  have hparen := Address.piecesFrom_ne_paren hnext
  rw [hpieces, namedReferences_word hnext] at hnamed
  rw [hpieces, Address.operandsOf_cons_word hparen] at hoperands
  have hrest : namedReferences (piecesFrom false cs) = [] := by
    split at hnamed
    · cases hnamed
    · exact hnamed
  refine ⟨⟨h.aligned.of_suffix (outside_suffix_word hw) hrest, h.no_colon_suffix,
    fun hcells v hv => hoperands hcells v (List.mem_cons_of_mem _ hv)⟩,
    ⟨?_, fun hopens => ?_, fun _ hcells => hoperands hcells w List.mem_cons_self⟩,
    by rw [hpieces, Address.joinWith_cons_word f hparen]⟩
  · split
    · rename_i hreference
      exact hf w hreference
    · exact .same
  · -- A reference in the name of a call is what an aligned text does not have.
    split
    · rename_i hreference
      rw [hreference, hopens] at hnamed
      cases hnamed
    · rfl

/-- A word is replaced, unless it is in the name of a call. -/
theorem word (h : Replaceable cells move f false (w ++ cs)) (hne : w ≠ [])
    (hw : ∀ c ∈ w, Text.isWord c = true) (hcs : ∀ c ∈ cs.head?, Text.isWord c = false)
    (hf : ∀ w, isReference w = true → Replaces w (f w)) :
    Replaceable cells move f false cs ∧ ∃ w',
      Becomes cells move (opensCall (piecesFrom false cs)) w w' ∧
      joinWith f (piecesFrom false (w ++ cs)) = w' ++ joinWith f (piecesFrom false cs) := by
  by_cases hname : cs.head? = some '('
  · obtain ⟨rest, rfl⟩ := List.head?_eq_some_iff.1 hname
    obtain ⟨hrest, hbecomes, hjoin⟩ := h.name hne hw
    exact ⟨hrest, w, hbecomes, hjoin⟩
  · have hnext : ∀ d ∈ cs.head?, Text.isWord d = false ∧ d ≠ '(' := by
      intro d hd
      refine ⟨hcs d hd, ?_⟩
      rintro rfl
      exact hname hd
    obtain ⟨hrest, hbecomes, hjoin⟩ := h.operand hne hw hnext hf
    exact ⟨hrest, _, hbecomes, hjoin⟩

end Replaceable

/-- Between a word and the next one in an aligned text there is more than spaces, if both
    meet with letters or digits. -/
theorem Aligned.gap {w cs : List Char} (h : Aligned false (w ++ cs))
    (hw : ∀ c ∈ w, Text.isWord c = true) (hcs : ∀ c ∈ cs.head?, Text.isWord c = false) :
    ∀ c ∈ w.getLast?, isAlnum c = true → ∀ d ∈ next? cs, isAlnum d = false := by
  intro c hc halnum d hd
  cases cs with
  | nil => cases hd
  | cons e cs =>
    by_cases hspace : e = ' '
    · subst hspace
      obtain ⟨init, rfl⟩ := List.getLast?_eq_some_iff.1 hc
      refine h.no_gap c (outside false cs) ?_ halnum d ?_
      · rw [Address.outside_word _ hw, List.append_assoc]
        exact List.suffix_append _ _
      · rw [next?_outside]
        exact hd
    · rw [next?_cons cs hspace, Option.mem_some_iff] at hd
      subst hd
      exact isAlnum_of_isWord (hcs _ rfl)

/-- In an aligned text there is no E behind a point. -/
theorem Aligned.exponent {cs : List Char} (h : Aligned false ('.' :: cs)) :
    ∀ d ∈ next? cs, Text.upper d ≠ 'E' := by
  intro d hd
  refine h.no_exponent (outside false cs) ?_ d ?_
  · rw [outside, if_neg (by decide)]
    exact List.suffix_refl _
  · rw [next?_outside]
    exact hd

/-- Rewriting the references of an aligned text replaces words. -/
theorem rewritten_joinWith {cells : Bool} {move : CellRef → CellRef} {f : List Char → List Char}
    {quoted : Bool} {cs : List Char} (h : Replaceable cells move f quoted cs)
    (hf : ∀ w, isReference w = true → Replaces w (f w)) :
    Rewritten cells move quoted cs (joinWith f (piecesFrom quoted cs)) := by
  induction quoted, cs using Address.text_induction with
  | nil quoted =>
    rw [piecesFrom, joinWith]
    exact .nil quoted
  | quoted c cs ih =>
    rw [piecesFrom, if_pos rfl, joinWith]
    exact .quoted (ih h.quoted)
  | plain c cs hword ih =>
    rw [Address.piecesFrom_plain cs hword, joinWith]
    refine .plain hword ?_ ?_ (ih (h.plain hword))
    · rintro hcells rfl
      exact h.no_colon hcells List.mem_cons_self
    · rintro rfl
      exact h.aligned.exponent
  | word w rest hne hw hrest ih =>
    obtain ⟨htail, w', hbecomes, hjoin⟩ := h.word hne hw hrest hf
    rw [hjoin]
    exact .word hne hw hrest (h.aligned.gap hw hrest) hbecomes
      (ih rest (List.suffix_refl _) htail)

end Formula

end Worksheet
