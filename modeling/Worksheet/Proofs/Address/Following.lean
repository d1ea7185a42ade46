import Mathlib.Data.List.TakeWhile
import Worksheet.Address.Reference
import Worksheet.Proofs.Address.Notation

/-!
# Texts That Follow Their Cells

A formula text after cells have moved, as a relation.

Rewriting cuts a text into words, changes some of them and joins the pieces
again. What is said about the result later on is said about reading it, from
left to right and next to the original, so the cutting is turned into a
relation between two texts that are read side by side: characters outside
words agree, names of functions agree, and every other word is either no cell
and the same in both, or a cell in one and the moved cell in the other.

The reader of formulas does not see the same words as the rewriting does. It
passes over spaces, it takes a point and what follows it for one text, and it
knows columns of any length. `Unambiguous` excludes the three, and nothing
else is needed for every word that means a cell to be rewritten.

## Main definitions

* `outside`: The characters outside quotes.
* `operandsOf`: The words that are no names of functions.
* `Unambiguous`: Formulas in which both see the same words.
* `WordFollows`, `Follows`: The relation on words and on texts.
* `Rewritable`: Texts that follow after they were rewritten.

## Theorems

* `referencesOf_eq`: Which operands are references.
* `joinWith_self`: A text is its pieces.
* `piecesFrom_word`, `piecesFrom_plain`: How a text is cut.
* `text_induction`, `call_induction`: Induction along the pieces of a text.
* `Rewritable.name`, `Rewritable.word`: What becomes of a word.
* `follows_joinWith`: Rewriting a text makes it follow.
-/

namespace Worksheet

namespace Address

/-- The characters outside quotes, with the quotes themselves. -/
def outside (quoted : Bool) : List Char → List Char
  | [] => []
  | c :: cs =>
    if quoted then if c == '"' then c :: outside false cs else outside true cs
    else c :: outside (c == '"') cs

/-- The words among pieces that are no names of functions, in order. -/
def operandsOf : List Piece → List (List Char)
  | [] => []
  | .word _ :: .plain '(' :: ps => operandsOf ps
  | .word run :: ps => run :: operandsOf ps
  | .plain _ :: ps => operandsOf ps

/-- The references are the operands that have the shape of one. -/
theorem referencesOf_eq (ps : List Piece) :
    referencesOf ps = (operandsOf ps).filter isReference := by
  induction ps using operandsOf.induct with
  | case1 => rfl
  | case2 run ps ih => rw [referencesOf, operandsOf, ih]
  | case3 run ps hname ih =>
    rw [referencesOf, operandsOf, List.filter_cons, ih]
    · exact hname
    · exact hname
  | case4 c ps ih => rw [referencesOf, operandsOf, ih]

/-- A formula text without spaces, without a point directly before a letter and
    without a cell in a column of more than three letters, all of it outside
    quotes. -/
structure Unambiguous (quoted : Bool) (cs : List Char) : Prop where
  no_space : ' ' ∉ outside quoted cs
  no_point : ∀ c, Text.isLetter c = true → ¬ ['.', c] <:+: outside quoted cs
  no_wide : ∀ w ∈ operandsOf (piecesFrom quoted cs),
    CellRef.ofChars? w ≠ none → isReference w = true

/-- A text without any point is unambiguous, if it has no space and no wide cell. -/
theorem unambiguous_of_no_point {quoted : Bool} {cs : List Char} (hspace : ' ' ∉ outside quoted cs)
    (hpoint : '.' ∉ outside quoted cs)
    (hwide : ∀ w ∈ operandsOf (piecesFrom quoted cs),
      CellRef.ofChars? w ≠ none → isReference w = true) : Unambiguous quoted cs where
  no_space := hspace
  no_point c _ hpart := hpoint (hpart.subset (by simp))
  no_wide := hwide

/-- A word is no cell and stays, or it is a cell and the other word is the moved
    one. -/
def WordFollows (move : CellRef → CellRef) (w w' : List Char) : Prop :=
  (CellRef.ofChars? w = none ∧ w' = w) ∨
    ∃ c, CellRef.ofChars? w = some c ∧ CellRef.ofChars? w' = some (move c)

/-- A text follows another if it says the same about moved cells. The flag says
    that both begin inside quotes. -/
inductive Follows (move : CellRef → CellRef) : Bool → List Char → List Char → Prop where
  | nil (quoted : Bool) : Follows move quoted [] []
  | quoted {c : Char} {cs cs' : List Char} :
    Follows move (c != '"') cs cs' → Follows move true (c :: cs) (c :: cs')
  | plain {c : Char} {cs cs' : List Char} (hword : Text.isWord c = false) (hspace : c ≠ ' ')
    (hpoint : c = '.' → ∀ d ∈ cs.head?, Text.isLetter d = false) :
    Follows move (c == '"') cs cs' → Follows move false (c :: cs) (c :: cs')
  | name {w cs cs' : List Char} (hne : w ≠ []) (hw : ∀ c ∈ w, Text.isWord c = true) :
    Follows move false cs cs' → Follows move false (w ++ '(' :: cs) (w ++ '(' :: cs')
  | word {w w' cs cs' : List Char} (hne : w ≠ []) (hw : ∀ c ∈ w, Text.isWord c = true)
    (hnext : ∀ c ∈ cs.head?, Text.isWord c = false ∧ c ≠ '(') (h : WordFollows move w w') :
    Follows move false cs cs' → Follows move false (w ++ cs) (w' ++ cs')

/-- Replacing references by themselves joins a word as it is. -/
theorem joinWith_word_self (run : List Char) (ps : List Piece) :
    joinWith (fun w => w) (.word run :: ps) = run ++ joinWith (fun w => w) ps := by
  rw [joinWith.eq_def]
  split
  · rename_i heq
    cases heq
  · rename_i heq
    cases heq
    rfl
  · rename_i heq
    cases heq
    rw [ite_self]
  · rename_i heq
    cases heq

/-- A text is its pieces. -/
theorem joinWith_self (quoted : Bool) (cs : List Char) :
    joinWith (fun w => w) (piecesFrom quoted cs) = cs := by
  have hword (c : Char) (ps : List Piece) :
      joinWith (fun w => w) (consWord c ps) = c :: joinWith (fun w => w) ps := by
    unfold consWord
    split
    · rw [joinWith_word_self, joinWith_word_self, List.cons_append]
    · rw [joinWith_word_self]
      rfl
  induction cs generalizing quoted with
  | nil => rfl
  | cons c cs ih =>
    unfold piecesFrom
    split
    · rw [joinWith, ih]
    · split
      · rw [joinWith, ih]
      · split
        · rw [hword, ih]
        · rw [joinWith, ih]

/-- No quote is part of a word. -/
theorem ne_quote_of_isWord {c : Char} (h : Text.isWord c = true) : c ≠ '"' := by
  rintro rfl
  exact absurd h (by decide)

/-- A word is cut off as one piece. -/
theorem piecesFrom_word {w cs : List Char} (hne : w ≠ []) (hw : ∀ c ∈ w, Text.isWord c = true)
    (hcs : ∀ c ∈ cs.head?, Text.isWord c = false) :
    piecesFrom false (w ++ cs) = .word w :: piecesFrom false cs := by
  -- The text behind the word begins no word, so the word does not grow into it.
  have hstart : ∀ run ps, piecesFrom false cs ≠ .word run :: ps := by
    intro run ps
    cases cs with
    | nil => simp [piecesFrom]
    | cons d ds =>
      have hd := hcs d (by simp)
      by_cases hquote : d = '"'
      · simp [piecesFrom, hquote]
      · simp [piecesFrom, hquote, hd]
  have hcons (c : Char) : consWord c (piecesFrom false cs) = .word [c] :: piecesFrom false cs := by
    unfold consWord
    split
    · rename_i heq
      exact absurd heq (hstart _ _)
    · rfl
  induction w with
  | nil => exact absurd rfl hne
  | cons c w ih =>
    have hc := hw c (by simp)
    rw [List.cons_append, piecesFrom, if_neg (by decide), if_neg (by simp [ne_quote_of_isWord hc]),
      if_pos hc]
    cases w with
    | nil => exact hcons c
    | cons d w => rw [ih (by simp) fun e he => hw e (by simp [he])]; rfl

/-- A character outside words and quotes is a piece of its own. -/
theorem piecesFrom_plain {c : Char} (cs : List Char) (hc : Text.isWord c = false) :
    piecesFrom false (c :: cs) = .plain c :: piecesFrom (c == '"') cs := by
  rw [piecesFrom, if_neg (by decide)]
  by_cases hquote : c = '"'
  · subst hquote
    rfl
  · rw [show (c == '"') = false by simpa using hquote, if_neg (by decide), if_neg (by simp [hc])]

/-- A word before a parenthesis is cut off with it. -/
theorem piecesFrom_name {w : List Char} (cs : List Char) (hne : w ≠ [])
    (hw : ∀ c ∈ w, Text.isWord c = true) :
    piecesFrom false (w ++ '(' :: cs) = .word w :: .plain '(' :: piecesFrom false cs := by
  rw [piecesFrom_word hne hw (by simp [show Text.isWord '(' = false by decide]),
    piecesFrom_plain cs (by decide)]
  rfl

/-- What begins no word and is no parenthesis is cut off in front of the pieces. -/
theorem piecesFrom_ne_paren {cs : List Char}
    (hcs : ∀ c ∈ cs.head?, Text.isWord c = false ∧ c ≠ '(') (qs : List Piece) :
    piecesFrom false cs ≠ .plain '(' :: qs := by
  cases cs with
  | nil => simp [piecesFrom]
  | cons c cs =>
    rw [piecesFrom_plain cs (hcs c rfl).1]
    intro heq
    rw [List.cons.injEq, Piece.plain.injEq] at heq
    exact (hcs c rfl).2 heq.1

/-- A word that is no name of a function is rewritten if it is a reference. -/
theorem joinWith_cons_word (f : List Char → List Char) {w : List Char} {ps : List Piece}
    (h : ∀ qs, ps ≠ .plain '(' :: qs) :
    joinWith f (.word w :: ps) = (if isReference w then f w else w) ++ joinWith f ps := by
  rw [joinWith]
  exact fun qs hqs => h qs hqs

theorem referencesOf_cons_word {w : List Char} {ps : List Piece}
    (h : ∀ qs, ps ≠ .plain '(' :: qs) :
    referencesOf (.word w :: ps) =
      if isReference w then w :: referencesOf ps else referencesOf ps := by
  rw [referencesOf]
  exact fun qs hqs => h qs hqs

theorem operandsOf_cons_word {w : List Char} {ps : List Piece} (h : ∀ qs, ps ≠ .plain '(' :: qs) :
    operandsOf (.word w :: ps) = w :: operandsOf ps := by
  rw [operandsOf]
  exact fun qs hqs => h qs hqs

/-- A text that begins with a word character is a word and what follows it. -/
theorem takeWhile_word {c : Char} (cs : List Char) (hc : Text.isWord c = true) :
    (∀ d ∈ c :: cs.takeWhile Text.isWord, Text.isWord d = true) ∧
      (∀ d ∈ (cs.dropWhile Text.isWord).head?, Text.isWord d = false) ∧
      c :: cs = c :: cs.takeWhile Text.isWord ++ cs.dropWhile Text.isWord := by
  refine ⟨fun d hd => ?_, fun d hd => ?_, ?_⟩
  · rcases List.mem_cons.1 hd with rfl | hd
    · exact hc
    · exact List.mem_takeWhile_imp hd
  · have hnot := List.head?_dropWhile_not Text.isWord cs
    rw [Option.mem_def] at hd
    rw [hd] at hnot
    simpa using hnot
  · rw [List.cons_append, List.takeWhile_append_dropWhile]

/-- A text is read to its end by taking off quoted characters, characters outside words and
    whole words. A word comes with what is known of all that follows it, since the name of a
    function is taken together with its parenthesis. -/
theorem text_induction {motive : Bool → List Char → Prop} (nil : ∀ quoted, motive quoted [])
    (quoted : ∀ c cs, motive (c != '"') cs → motive true (c :: cs))
    (plain : ∀ c cs, Text.isWord c = false → motive (c == '"') cs → motive false (c :: cs))
    (word : ∀ w rest, w ≠ [] → (∀ c ∈ w, Text.isWord c = true) →
      (∀ c ∈ rest.head?, Text.isWord c = false) → (∀ cs, cs <:+ rest → motive false cs) →
      motive false (w ++ rest))
    (inQuotes : Bool) (cs : List Char) : motive inQuotes cs := by
  induction hlen : cs.length using Nat.strongRecOn generalizing inQuotes cs with
  | ind n ih =>
    subst hlen
    cases cs with
    | nil => exact nil inQuotes
    | cons c cs =>
      cases inQuotes with
      | true => exact quoted c cs (ih cs.length (by simp) _ cs rfl)
      | false =>
        by_cases hword : Text.isWord c = true
        · rcases takeWhile_word cs hword with ⟨hw, hrest, heq⟩
          rw [heq] at ih ⊢
          refine word _ _ (List.cons_ne_nil _ _) hw hrest fun ds hds => ih ds.length ?_ false ds rfl
          have hle := hds.length_le
          rw [List.length_append, List.length_cons]
          omega
        · rw [Bool.not_eq_true] at hword
          exact plain c cs hword (ih cs.length (by simp) _ cs rfl)

/-- A text is read to its end with the names of functions told apart from other words. -/
theorem call_induction {motive : Bool → List Char → Prop} (nil : ∀ quoted, motive quoted [])
    (quoted : ∀ c cs, motive (c != '"') cs → motive true (c :: cs))
    (plain : ∀ c cs, Text.isWord c = false → motive (c == '"') cs → motive false (c :: cs))
    (name : ∀ w cs, w ≠ [] → (∀ c ∈ w, Text.isWord c = true) → motive false cs →
      motive false (w ++ '(' :: cs))
    (word : ∀ w cs, w ≠ [] → (∀ c ∈ w, Text.isWord c = true) →
      (∀ c ∈ cs.head?, Text.isWord c = false ∧ c ≠ '(') → motive false cs →
      motive false (w ++ cs))
    (inQuotes : Bool) (cs : List Char) : motive inQuotes cs := by
  induction inQuotes, cs using text_induction with
  | nil inQuotes => exact nil inQuotes
  | quoted c cs ih => exact quoted c cs ih
  | plain c cs hc ih => exact plain c cs hc ih
  | word w rest hne hw hrest ih =>
    by_cases hname : rest.head? = some '('
    · rcases List.head?_eq_some_iff.1 hname with ⟨cs, rfl⟩
      exact name w cs hne hw (ih cs (List.suffix_cons _ _))
    · refine word w rest hne hw (fun d hd => ⟨hrest d hd, ?_⟩) (ih rest (List.suffix_refl _))
      rintro rfl
      exact hname hd

/-- Words are outside quotes as a whole. -/
theorem outside_word {w : List Char} (cs : List Char) (hw : ∀ c ∈ w, Text.isWord c = true) :
    outside false (w ++ cs) = w ++ outside false cs := by
  induction w with
  | nil => rfl
  | cons c w ih =>
    have hquote := ne_quote_of_isWord (hw c (by simp))
    rw [List.cons_append, outside, if_neg (by decide),
      show (c == '"') = false by simpa using hquote, ih fun d hd => hw d (by simp [hd])]
    rfl

/-- What is outside quotes after a quoted character was so before it. -/
theorem outside_quoted (c : Char) (cs : List Char) :
    outside (c != '"') cs <:+ outside true (c :: cs) := by
  rw [outside, if_pos rfl]
  by_cases hc : c = '"'
  · subst hc
    exact List.suffix_cons _ _
  · rw [show (c != '"') = true by simpa using hc, show (c == '"') = false by simpa using hc]
    exact List.suffix_refl _

/-- The rest of an unambiguous text is unambiguous. -/
theorem Unambiguous.of_suffix {quoted quoted' : Bool} {cs cs' : List Char}
    (h : Unambiguous quoted cs)
    (hsuffix : outside quoted' cs' <:+ outside quoted cs)
    (hwords : operandsOf (piecesFrom quoted' cs') ⊆ operandsOf (piecesFrom quoted cs)) :
    Unambiguous quoted' cs' where
  no_space hmem := h.no_space (hsuffix.subset hmem)
  no_point c hc hpart := h.no_point c hc (hpart.trans hsuffix.isInfix)
  no_wide w hw := h.no_wide w (hwords hw)

/-- A text that follows after it was rewritten: it is unambiguous, and all its
    references follow. -/
structure Rewritable (move : CellRef → CellRef) (f : List Char → List Char) (quoted : Bool)
    (cs : List Char) : Prop where
  unambiguous : Unambiguous quoted cs
  references : ∀ w ∈ referencesOf (piecesFrom quoted cs), WordFollows move w (f w)

namespace Rewritable

variable {move : CellRef → CellRef} {f : List Char → List Char} {w cs : List Char} {c : Char}

theorem quoted (h : Rewritable move f true (c :: cs)) : Rewritable move f (c != '"') cs where
  unambiguous := by
    refine h.unambiguous.of_suffix (outside_quoted c cs) ?_
    rw [piecesFrom, if_pos rfl, operandsOf]
    exact List.Subset.refl _
  references := by
    have hf := h.references
    rwa [piecesFrom, if_pos rfl, referencesOf] at hf

theorem plain (h : Rewritable move f false (c :: cs)) (hc : Text.isWord c = false) :
    Rewritable move f (c == '"') cs := by
  have houtside : outside false (c :: cs) = c :: outside (c == '"') cs := by
    rw [outside, if_neg (by decide)]
  have hf := h.references
  rw [piecesFrom_plain cs hc, referencesOf] at hf
  refine ⟨h.unambiguous.of_suffix ?_ ?_, hf⟩
  · rw [houtside]
    exact List.suffix_cons _ _
  · rw [piecesFrom_plain cs hc, operandsOf]
    exact List.Subset.refl _

/-- Outside quotes there is no space. -/
theorem ne_space (h : Rewritable move f false (c :: cs)) : c ≠ ' ' := by
  rintro rfl
  have hspace := h.unambiguous.no_space
  rw [outside, if_neg (by decide)] at hspace
  exact hspace List.mem_cons_self

/-- Outside quotes there is no point before a letter. -/
theorem isLetter_head? (h : Rewritable move f false ('.' :: cs)) :
    ∀ d ∈ cs.head?, Text.isLetter d = false := by
  intro d hd
  rcases List.head?_eq_some_iff.1 hd with ⟨ds, rfl⟩
  cases hletter : Text.isLetter d with
  | false => rfl
  | true =>
    -- The point and the letter would stand side by side outside quotes.
    refine absurd ?_ (h.unambiguous.no_point d hletter)
    rw [outside, if_neg (by decide), show ('.' == '"') = false by decide, outside,
      if_neg (by decide)]
    exact ⟨[], _, rfl⟩

/-- A word before a parenthesis is a name and stays. -/
theorem name (h : Rewritable move f false (w ++ '(' :: cs)) (hne : w ≠ [])
    (hw : ∀ c ∈ w, Text.isWord c = true) :
    Rewritable move f false cs ∧ joinWith f (piecesFrom false (w ++ '(' :: cs)) =
      w ++ '(' :: joinWith f (piecesFrom false cs) := by
  have hpieces := piecesFrom_name cs hne hw
  have hf := h.references
  rw [hpieces, referencesOf] at hf
  refine ⟨⟨h.unambiguous.of_suffix ?_ ?_, hf⟩, by rw [hpieces, joinWith]⟩
  · rw [outside_word _ hw]
    exact (List.suffix_cons _ _).trans (List.suffix_append _ _)
  · rw [hpieces, operandsOf]
    exact List.Subset.refl _

/-- Every other word is an operand, and follows. -/
theorem word (h : Rewritable move f false (w ++ cs)) (hne : w ≠ [])
    (hw : ∀ c ∈ w, Text.isWord c = true)
    (hcs : ∀ c ∈ cs.head?, Text.isWord c = false ∧ c ≠ '(') :
    Rewritable move f false cs ∧ ∃ w', WordFollows move w w' ∧
      joinWith f (piecesFrom false (w ++ cs)) = w' ++ joinWith f (piecesFrom false cs) := by
  have hpieces := piecesFrom_word hne hw fun c hc => (hcs c hc).1
  have hparen := piecesFrom_ne_paren hcs
  have hoperands := operandsOf_cons_word (w := w) hparen
  have hwide := h.unambiguous.no_wide w
  have hf := h.references
  rw [hpieces, hoperands] at hwide
  rw [hpieces, referencesOf_cons_word hparen] at hf
  refine ⟨⟨h.unambiguous.of_suffix ?_ ?_, fun v hv => hf v ?_⟩, _, ?_,
    by rw [hpieces, joinWith_cons_word f hparen]⟩
  · rw [outside_word _ hw]
    exact List.suffix_append _ _
  · rw [hpieces, hoperands]
    exact List.subset_cons_self _ _
  · split
    · exact List.mem_cons_of_mem _ hv
    · exact hv
  · by_cases hreference : isReference w = true
    · rw [if_pos hreference] at hf ⊢
      exact hf w List.mem_cons_self
    -- A word without the shape of a reference stays, and no wide cell is among those.
    · rw [if_neg hreference]
      refine .inl ⟨?_, rfl⟩
      cases hcell : CellRef.ofChars? w with
      | none => rfl
      | some r =>
        refine absurd (hwide List.mem_cons_self ?_) hreference
        rw [hcell]
        simp

end Rewritable

/-- Rewriting the references of an unambiguous text makes the text follow, if it
    makes every reference follow. -/
theorem follows_joinWith {move : CellRef → CellRef} {f : List Char → List Char} {quoted : Bool}
    {cs : List Char} (h : Unambiguous quoted cs)
    (hf : ∀ w ∈ referencesOf (piecesFrom quoted cs), WordFollows move w (f w)) :
    Follows move quoted cs (joinWith f (piecesFrom quoted cs)) := by
  have htext : Rewritable move f quoted cs := ⟨h, hf⟩
  clear h hf
  induction quoted, cs using call_induction with
  | nil quoted =>
    rw [piecesFrom, joinWith]
    exact .nil quoted
  | quoted c cs ih =>
    rw [piecesFrom, if_pos rfl, joinWith]
    exact .quoted (ih htext.quoted)
  | plain c cs hword ih =>
    rw [piecesFrom_plain cs hword, joinWith]
    refine .plain hword htext.ne_space ?_ (ih (htext.plain hword))
    rintro rfl
    exact htext.isLetter_head?
  | name w cs hne hw ih =>
    rcases htext.name hne hw with ⟨htail, hjoin⟩
    rw [hjoin]
    exact .name hne hw (ih htail)
  | word w cs hne hw hcs ih =>
    rcases htext.word hne hw hcs with ⟨htail, w', hfollows, hjoin⟩
    rw [hjoin]
    exact .word hne hw hcs hfollows (ih htail)

end Address

end Worksheet
