import Worksheet.Proofs.Address.Following

/-!
# References That Are Replaced Twice

What a second rewriting finds in a text that was rewritten before.

A reference is cut out of a text by what stands around it. As long as words are
replaced by words, what stands around them stays, and the new text falls into the
same pieces with new words among them. So the second rewriting meets a new word
where the first one met a reference, and the two together are one rewriting, which
asks once more whether the new word has the shape of a reference. Since a text and
its pieces determine each other, two rewritings agree on a text just when they
agree on each of its references, and a text is got back when its references are.

## Main definitions

* `IsRun`: A word.
* `replaceIn`: Pieces with their references replaced.
* `Restores`: A word that is got back after it was replaced.

## Theorems

* `piecesFrom_joinWith`: The pieces of a text that was rewritten.
* `mapReferences_mapReferences`: Two rewritings are one.
* `mapReferences_eq_iff`: When two rewritings agree on a text.
* `mapReferences_restores`: A text is got back if its references are.
-/

namespace Worksheet

namespace Address

/-! ## Pieces -/

/-- A word: word characters, and at least one. -/
def IsRun (w : List Char) : Prop := w ≠ [] ∧ ∀ c ∈ w, Text.isWord c = true

/-- Pieces with `f` applied to every reference. -/
def replaceIn (f : List Char → List Char) : List Piece → List Piece
  | [] => []
  | .word run :: .plain '(' :: ps => .word run :: .plain '(' :: replaceIn f ps
  | .word run :: ps => .word (if isReference run then f run else run) :: replaceIn f ps
  | .plain c :: ps => .plain c :: replaceIn f ps

variable {f g : List Char → List Char}

/-- Whether a parenthesis follows a word does not depend on the words. -/
theorem replaceIn_ne_paren {ps : List Piece} (h : ∀ qs, ps ≠ .plain '(' :: qs) (qs : List Piece) :
    replaceIn f ps ≠ .plain '(' :: qs := by
  rw [replaceIn.eq_def]
  split
  · simp
  · simp
  · simp
  · rename_i c ps
    intro heq
    rw [List.cons.injEq, Piece.plain.injEq] at heq
    exact h ps (by rw [heq.1])

/-- A word that is no name of a function is replaced if it is a reference. -/
theorem replaceIn_cons_word (f : List Char → List Char) {w : List Char} {ps : List Piece}
    (h : ∀ qs, ps ≠ .plain '(' :: qs) :
    replaceIn f (.word w :: ps) =
      .word (if isReference w then f w else w) :: replaceIn f ps := by
  rw [replaceIn]
  exact fun qs hqs => h qs hqs

/-- A second rewriting finds the new words where the references were. -/
theorem joinWith_replaceIn (f g : List Char → List Char) (ps : List Piece) :
    joinWith g (replaceIn f ps) =
      joinWith (fun w => if isReference (f w) then g (f w) else f w) ps := by
  fun_induction replaceIn f ps with
  | case1 => rfl
  | case2 run ps ih => rw [joinWith, joinWith, ih]
  | case3 run ps hname ih =>
    rw [joinWith_cons_word g (replaceIn_ne_paren hname), joinWith_cons_word _ hname, ih]
    by_cases hreference : isReference run = true
    · simp only [if_pos hreference]
    · simp only [if_neg hreference]
  | case4 c ps ih => rw [joinWith, joinWith, ih]

/-- Two replacements make the same pieces just when they replace every reference alike. -/
theorem replaceIn_eq_iff {ps : List Piece} :
    replaceIn f ps = replaceIn g ps ↔ ∀ w ∈ referencesOf ps, f w = g w := by
  fun_induction replaceIn f ps with
  | case1 => exact iff_of_true rfl fun w hw => absurd hw List.not_mem_nil
  | case2 run ps ih =>
    rw [replaceIn, referencesOf, ← ih]
    simp
  | case3 run ps hname ih =>
    rw [replaceIn_cons_word g hname, referencesOf_cons_word hname, List.cons.injEq,
      Piece.word.injEq, ih]
    by_cases hreference : isReference run = true
    · simp only [if_pos hreference, List.forall_mem_cons]
    · simp only [if_neg hreference, true_and]
  | case4 c ps ih =>
    rw [replaceIn, referencesOf, ← ih]
    simp

/-! ## Texts -/

/-- Replacing references leaves a character that is in no word where it is. -/
theorem head?_joinWith (f : List Char → List Char) {cs : List Char}
    (hcs : ∀ c ∈ cs.head?, Text.isWord c = false) :
    (joinWith f (piecesFrom false cs)).head? = cs.head? := by
  cases cs with
  | nil => rfl
  | cons c cs =>
    rw [piecesFrom_plain cs (hcs c rfl), joinWith]
    rfl

/-- A text whose references were replaced by words falls into the same pieces, with the new
    words among them. -/
theorem piecesFrom_joinWith {quoted : Bool} {cs : List Char}
    (h : ∀ w ∈ referencesOf (piecesFrom quoted cs), IsRun w → IsRun (f w)) :
    piecesFrom quoted (joinWith f (piecesFrom quoted cs)) = replaceIn f (piecesFrom quoted cs) := by
  induction quoted, cs using call_induction with
  | nil => rfl
  | quoted c cs ih =>
    rw [piecesFrom, if_pos rfl] at h ⊢
    rw [referencesOf] at h
    rw [joinWith, piecesFrom, if_pos rfl, replaceIn, ih h]
  | plain c cs hword ih =>
    rw [piecesFrom_plain cs hword] at h ⊢
    rw [referencesOf] at h
    rw [joinWith, piecesFrom_plain _ hword, replaceIn, ih h]
  | name w cs hne hw ih =>
    rw [piecesFrom_name cs hne hw, referencesOf] at h
    rw [piecesFrom_name cs hne hw, joinWith, piecesFrom_name _ hne hw, replaceIn, ih h]
  | word w cs hne hw hcs ih =>
    have hparen := piecesFrom_ne_paren hcs
    have hrest : ∀ d ∈ cs.head?, Text.isWord d = false := fun d hd => (hcs d hd).1
    rw [piecesFrom_word hne hw hrest, referencesOf_cons_word hparen] at h
    -- The new word is cut off where the old one was.
    have hrun : IsRun (if isReference w then f w else w) := by
      by_cases hreference : isReference w = true
      · rw [if_pos hreference]
        exact h w (by rw [if_pos hreference]; exact List.mem_cons_self) ⟨hne, hw⟩
      · rw [if_neg hreference]
        exact ⟨hne, hw⟩
    have hrest' : ∀ d ∈ (joinWith f (piecesFrom false cs)).head?, Text.isWord d = false := by
      rw [head?_joinWith f hrest]
      exact hrest
    rw [piecesFrom_word hne hw hrest, joinWith_cons_word f hparen, replaceIn_cons_word f hparen,
      piecesFrom_word hrun.1 hrun.2 hrest', ih fun v hv => h v (by split <;> simp [hv])]

/-- Two rewritings are one, which looks at the new word before it replaces that again. -/
theorem mapReferences_mapReferences {formula : List Char}
    (h : ∀ w ∈ references formula, IsRun w → IsRun (f w)) :
    mapReferences g (mapReferences f formula) =
      mapReferences (fun w => if isReference (f w) then g (f w) else f w) formula := by
  unfold mapReferences pieces
  rw [piecesFrom_joinWith h, joinWith_replaceIn]

/-- Rewritings agree on a text just when they agree on each of its references. -/
theorem mapReferences_eq_iff {formula : List Char}
    (hf : ∀ w ∈ references formula, IsRun w → IsRun (f w))
    (hg : ∀ w ∈ references formula, IsRun w → IsRun (g w)) :
    mapReferences f formula = mapReferences g formula ↔ ∀ w ∈ references formula, f w = g w := by
  rw [references, ← replaceIn_eq_iff]
  constructor
  -- A text determines its pieces, and its pieces determine it.
  · intro h
    rw [pieces, ← piecesFrom_joinWith hf, ← piecesFrom_joinWith hg]
    exact congrArg (piecesFrom false) h
  · intro h
    have hjoined := congrArg (joinWith fun w => w) h
    simp only [joinWith_replaceIn, ite_self] at hjoined
    exact hjoined

/-- A word is replaced by a word of the same shape, from which it is got back. -/
structure Restores (f g : List Char → List Char) (w : List Char) : Prop where
  isReference : isReference w = true → isReference (f w) = true
  isWord : (∀ c ∈ w, Text.isWord c = true) → ∀ c ∈ f w, Text.isWord c = true
  back : g (f w) = w

/-- A word that is not replaced is got back. -/
theorem Restores.of_stays {w : List Char} (hf : f w = w) (hg : g w = w) : Restores f g w where
  isReference h := by rwa [hf]
  isWord h := by rwa [hf]
  back := by rw [hf, hg]

theorem ne_nil_of_isReference {w : List Char} (h : isReference w = true) : w ≠ [] := by
  rintro rfl
  exact absurd h (by decide)

theorem isReference_of_mem {ps : List Piece} {w : List Char} (h : w ∈ referencesOf ps) :
    isReference w = true := by
  fun_induction referencesOf ps with
  | case1 => cases h
  | case2 _ _ ih => exact ih h
  | case3 run ps _ hreference ih =>
    rcases List.mem_cons.1 h with rfl | h
    · exact hreference
    · exact ih h
  | case4 _ _ _ _ ih => exact ih h
  | case5 _ _ ih => exact ih h

/-- Replacing the references of a text twice restores the text, if it restores every
    reference. -/
theorem mapReferences_restores {formula : List Char}
    (h : ∀ w ∈ references formula, Restores f g w) :
    mapReferences g (mapReferences f formula) = formula := by
  have hreference : ∀ w ∈ references formula, isReference (f w) = true := fun w hw =>
    (h w hw).isReference (isReference_of_mem hw)
  have hruns : ∀ w ∈ references formula, IsRun w → IsRun (f w) := fun w hw hrun =>
    ⟨ne_nil_of_isReference (hreference w hw), (h w hw).isWord hrun.2⟩
  have hback : ∀ w ∈ references formula, (if isReference (f w) then g (f w) else f w) = w :=
    fun w hw => by rw [if_pos (hreference w hw), (h w hw).back]
  rw [mapReferences_mapReferences hruns]
  refine ((mapReferences_eq_iff (g := fun w => w) (fun w hw hrun => ?_) fun _ _ h => h).2
    hback).trans (joinWith_self false formula)
  rw [hback w hw]
  exact hrun

end Address

end Worksheet
