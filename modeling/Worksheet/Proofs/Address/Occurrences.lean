import Worksheet.Proofs.Address.Replacing

/-!
# Where References Stand

Which places of a text are rewritten, said without cutting the text.

A place is a run of characters with what stands before and after it. It is a
reference when four things hold of it that can be looked up in the text: the
run is a word that cannot be made longer, it has one to three letters followed
by digits, no parenthesis follows it, and the number of quotes before it is
even. The rewriting knows nothing of places. It takes characters off one after
another and joins words as it goes, so that both are compared by induction
along the text, with a step for each thing that is taken off.

The pieces of a text, marked as references and as what is copied, are the link:
their characters are the text, the places of the marked ones are the places
above, and the rewriting replaces the marked ones and nothing else.

## Main definitions

* `Place`: A run in a text.
* `Place.IsWord`: A word that is as long as it can be.
* `IsSpelled`: One to three letters, then digits.
* `Place.Occurs`: A reference of a text.
* `Part`, `parts`: A text taken apart at its references.
* `Part.places`: The places of the references among parts.

## Theorems

* `isReference_iff`: The shape of a reference.
* `occurs_quoted`, `occurs_plain`, `occurs_word`: What stands behind a beginning.
* `occurs_iff_mem_places`: The references of a text are those that it is taken apart at.
* `joinWith_eq`, `referencesOf_eq_runs`: Rewriting by parts.
-/

namespace Worksheet

namespace Address

/-! ## The shape of a reference -/

/-- One to three letters, then digits of any script. -/
def IsSpelled (run : List Char) : Prop :=
  ∃ letters digits, run = letters ++ digits ∧
    (1 ≤ letters.length ∧ letters.length ≤ 3 ∧ ∀ c ∈ letters, Text.isLetter c = true) ∧
    digits ≠ [] ∧ ∀ c ∈ digits, Text.isDecimal c = true

/-- The first digit is where the letters end. -/
theorem isReference_iff {run : List Char} : isReference run = true ↔ IsSpelled run := by
  unfold isReference
  simp only [Bool.and_eq_true, decide_eq_true_eq, bne_iff_ne, List.all_eq_true]
  constructor
  · rintro ⟨⟨⟨hpos, hle⟩, hne⟩, hdigits⟩
    exact ⟨_, _, (List.takeWhile_append_dropWhile (p := Text.isLetter)).symm,
      ⟨hpos, hle, fun c hc => List.mem_takeWhile_imp hc⟩, hne, hdigits⟩
  · rintro ⟨letters, digits, rfl, ⟨hpos, hle, hletters⟩, hne, hdigits⟩
    obtain ⟨d, ds, rfl⟩ := List.exists_cons_of_ne_nil hne
    have hd := Text.isLetter_of_isDecimal (hdigits d List.mem_cons_self)
    rw [List.takeWhile_append_of_pos hletters, List.dropWhile_append_of_pos hletters,
      List.takeWhile_cons_of_neg (by simp [hd]), List.dropWhile_cons_of_neg (by simp [hd]),
      List.append_nil]
    exact ⟨⟨⟨hpos, hle⟩, hne⟩, hdigits⟩

/-! ## Places -/

/-- A run of characters in a text, with what stands before and after it. -/
structure Place where
  before : List Char
  run : List Char
  after : List Char
  deriving DecidableEq, Repr

namespace Place

variable {p q : Place} {u w rest cs : List Char} {c : Char} {quoted : Bool}

/-- The text that a place is in. -/
def text (p : Place) : List Char := p.before ++ (p.run ++ p.after)

/-- The place of the same run when `u` is put in front of the text. -/
def behind (u : List Char) (p : Place) : Place := { p with before := u ++ p.before }

theorem text_behind (u : List Char) (p : Place) : (p.behind u).text = u ++ p.text :=
  List.append_assoc _ _ _

theorem map_run_behind (u : List Char) (ps : List Place) :
    (ps.map (.behind u)).map Place.run = ps.map Place.run :=
  List.map_map

/-- Where a run begins in its text. -/
def start (p : Place) : Nat := p.before.length

/-- Where a run ends in its text. -/
def stop (p : Place) : Nat := p.start + p.run.length

theorem start_behind (u : List Char) (p : Place) : (p.behind u).start = u.length + p.start :=
  List.length_append

theorem stop_behind (u : List Char) (p : Place) : (p.behind u).stop = u.length + p.stop := by
  rw [stop, start_behind, Nat.add_assoc]
  rfl

/-- A place that leaves room for `u` is behind it. -/
theorem exists_behind (htext : p.text = u ++ rest) (hlen : u.length ≤ p.start) :
    ∃ q : Place, q.text = rest ∧ p = q.behind u := by
  obtain ⟨before, hbefore⟩ : u <+: p.before :=
    List.prefix_of_prefix_length_le (List.prefix_append u rest)
      (htext ▸ List.prefix_append p.before _) hlen
  refine ⟨⟨before, p.run, p.after⟩, ?_, ?_⟩
  · rw [text, ← hbefore, List.append_assoc] at htext
    exact List.append_cancel_left htext
  · rw [behind, hbefore]

/-- A word that cannot be made longer on either side. -/
structure IsWord (p : Place) : Prop where
  isRun : IsRun p.run
  starts : ∀ c ∈ p.before.getLast?, Text.isWord c = false
  ends : ∀ c ∈ p.after.head?, Text.isWord c = false

theorem IsWord.of_behind (h : (p.behind u).IsWord) : p.IsWord where
  isRun := h.isRun
  ends := h.ends
  starts c hc := by
    refine h.starts c ?_
    rw [Option.mem_def] at hc ⊢
    rw [behind, List.getLast?_append, hc, Option.some_or]

/-- A word stays as long as it was if `u` does not end in a word where the word begins. -/
theorem IsWord.behind (h : p.IsWord)
    (hu : p.before = [] → ∀ c ∈ u.getLast?, Text.isWord c = false) :
    (p.behind u).IsWord where
  isRun := h.isRun
  ends := h.ends
  starts c hc := by
    by_cases hbefore : p.before = []
    · rw [Place.behind, hbefore, List.append_nil] at hc
      exact hu hbefore c hc
    · rw [Place.behind, List.getLast?_append, List.getLast?_eq_some_getLast hbefore,
        Option.some_or] at hc
      exact h.starts c (List.getLast?_eq_some_getLast hbefore ▸ hc)

/-- Two words that begin at one place of a text are one word. -/
theorem IsWord.eq_of_before (hp : p.IsWord) (hq : q.IsWord) (htext : p.text = q.text)
    (hbefore : p.before = q.before) : p = q := by
  obtain ⟨before, run, after⟩ := p
  obtain ⟨before', run', after'⟩ := q
  obtain rfl : before = before' := hbefore
  have hrest : run ++ after = run' ++ after' := List.append_cancel_left htext
  have hcut {run after : List Char} (hrun : IsRun run)
      (hafter : ∀ c ∈ after.head?, Text.isWord c = false) :
      (run ++ after).takeWhile Text.isWord = run := by
    rw [List.takeWhile_append_of_pos hrun.2]
    cases after with
    | nil => rw [List.takeWhile_nil, List.append_nil]
    | cons c cs => rw [List.takeWhile_cons_of_neg (by simp [hafter c rfl]), List.append_nil]
  have hrun : run = run' :=
    (hcut hp.isRun hp.ends).symm.trans ((congrArg _ hrest).trans (hcut hq.isRun hq.ends))
  subst hrun
  obtain rfl : after = after' := List.append_cancel_left hrest
  rfl

/-- No word begins with a character that is in no word. -/
theorem IsWord.before_ne_nil (h : p.IsWord) (hcs : ∀ c ∈ p.text.head?, Text.isWord c = false) :
    p.before ≠ [] := by
  intro hbefore
  obtain ⟨c, run, hrun⟩ := List.exists_cons_of_ne_nil h.isRun.1
  have hc := h.isRun.2 c (hrun ▸ List.mem_cons_self)
  have hhead : p.text.head? = some c := by
    rw [text, hbefore, hrun]
    rfl
  rw [hcs c hhead] at hc
  cases hc

/-- A word of a text that begins with a word is that word or stands behind it. -/
theorem IsWord.eq_or_behind (h : p.IsWord) (htext : p.text = w ++ rest) (hw : IsRun w)
    (hrest : ∀ c ∈ rest.head?, Text.isWord c = false) :
    p = ⟨[], w, rest⟩ ∨ ∃ q : Place, q.text = rest ∧ p = q.behind w := by
  by_cases hbefore : p.before = []
  · exact .inl (h.eq_of_before ⟨hw, by simp, hrest⟩ htext hbefore)
  · refine .inr (exists_behind htext ?_)
    -- Otherwise a character of the first word would stand right before the run.
    by_contra hlen
    obtain ⟨u, hu⟩ : p.before <+: w :=
      List.prefix_of_prefix_length_le (htext ▸ List.prefix_append p.before _)
        (List.prefix_append w rest) (Nat.le_of_not_le hlen)
    have hlast := List.getLast?_eq_some_getLast hbefore
    have hword := hw.2 (p.before.getLast hbefore)
      (hu ▸ List.mem_append_left u (List.getLast_mem hbefore))
    rw [h.starts _ hlast] at hword
    cases hword

/-- A reference of a text: outside quotes, a word that is as long as it can be, spelled like a
    reference, and no name of a function. `quoted` says that the text starts inside a quoted
    part; a quote that is never closed quotes the rest of the text. -/
structure Occurs (quoted : Bool) (cs : List Char) (p : Place) : Prop where
  text_eq : p.text = cs
  outside : p.before.count '"' % 2 = quoted.toNat
  isWord : p.IsWord
  spelled : IsSpelled p.run
  no_name : p.after.head? ≠ some '('

/-- Putting one character in front of a text opens or closes a quotation if it is a quote. -/
theorem count_behind (p : Place) (c : Char) :
    (p.behind [c]).before.count '"' = p.before.count '"' + (c == '"').toNat := by
  rw [behind, List.singleton_append, List.count_cons]
  cases c == '"' <;> rfl

/-- The references of a text that starts inside quotes are those behind its first character. -/
theorem occurs_quoted :
    p.Occurs true (c :: cs) ↔ ∃ q : Place, q.Occurs (c != '"') cs ∧ p = q.behind [c] := by
  have hparity (n : Nat) :
      (n + (c == '"').toNat) % 2 = true.toNat ↔ n % 2 = (c != '"').toNat := by
    rw [bne]
    cases c == '"' <;>
      simp only [Bool.toNat_true, Bool.toNat_false, Bool.not_true, Bool.not_false] <;> omega
  constructor
  · intro h
    have hne : p.before ≠ [] := by
      intro hbefore
      have hcount := h.outside
      rw [hbefore] at hcount
      cases hcount
    obtain ⟨q, htext, rfl⟩ := exists_behind (u := [c]) h.text_eq (List.length_pos_iff.2 hne)
    refine ⟨q, ⟨htext, ?_, h.isWord.of_behind, h.spelled, h.no_name⟩, rfl⟩
    rw [← hparity, ← count_behind]
    exact h.outside
  · rintro ⟨q, h, rfl⟩
    refine ⟨by rw [text_behind, h.text_eq]; rfl, ?_, h.isWord.behind fun hbefore d hd => ?_,
      h.spelled, h.no_name⟩
    · rw [count_behind, hparity]
      exact h.outside
    -- A word right behind the character is outside quotes, so the character closes them.
    · obtain rfl : c = d := by simpa using hd
      have hcount := h.outside
      rw [hbefore] at hcount
      have hquote : c = '"' := by
        by_contra hc
        rw [bne_iff_ne.2 hc] at hcount
        cases hcount
      rw [hquote]
      decide

/-- The references of a text that begins outside words are those behind its first character. -/
theorem occurs_plain (hc : Text.isWord c = false) :
    p.Occurs false (c :: cs) ↔ ∃ q : Place, q.Occurs (c == '"') cs ∧ p = q.behind [c] := by
  have hparity (n : Nat) :
      (n + (c == '"').toNat) % 2 = false.toNat ↔ n % 2 = (c == '"').toNat := by
    cases c == '"' <;> simp only [Bool.toNat_true, Bool.toNat_false] <;> omega
  constructor
  · intro h
    have hne : p.before ≠ [] := h.isWord.before_ne_nil (by simpa [h.text_eq] using hc)
    obtain ⟨q, htext, rfl⟩ := exists_behind (u := [c]) h.text_eq (List.length_pos_iff.2 hne)
    refine ⟨q, ⟨htext, ?_, h.isWord.of_behind, h.spelled, h.no_name⟩, rfl⟩
    rw [← hparity, ← count_behind]
    exact h.outside
  · rintro ⟨q, h, rfl⟩
    refine ⟨by rw [text_behind, h.text_eq]; rfl, ?_, h.isWord.behind fun _ => by simpa using hc,
      h.spelled, h.no_name⟩
    rw [count_behind, hparity]
    exact h.outside

/-- The references of a text that begins with a word are those behind the word, and the word if
    it is one. -/
theorem occurs_word (hw : IsRun w) (hrest : ∀ c ∈ rest.head?, Text.isWord c = false) :
    p.Occurs false (w ++ rest) ↔
      (p = ⟨[], w, rest⟩ ∧ IsSpelled w ∧ rest.head? ≠ some '(') ∨
        ∃ q : Place, q.Occurs false rest ∧ p = q.behind w := by
  have hcount (q : Place) : (q.behind w).before.count '"' = q.before.count '"' := by
    have hnone : '"' ∉ w := fun hmem => ne_quote_of_isWord (hw.2 _ hmem) rfl
    rw [behind, List.count_append, List.count_eq_zero.2 hnone, Nat.zero_add]
  constructor
  · intro h
    rcases h.isWord.eq_or_behind h.text_eq hw hrest with rfl | ⟨q, htext, rfl⟩
    · exact .inl ⟨rfl, h.spelled, h.no_name⟩
    · have houtside := h.outside
      rw [hcount] at houtside
      exact .inr ⟨q, ⟨htext, houtside, h.isWord.of_behind, h.spelled, h.no_name⟩, rfl⟩
  · rintro (⟨rfl, hspelled, hname⟩ | ⟨q, h, rfl⟩)
    · exact ⟨rfl, rfl, ⟨hw, by simp, hrest⟩, hspelled, hname⟩
    · refine ⟨by rw [text_behind, h.text_eq], by rw [hcount, h.outside],
        h.isWord.behind fun hbefore => ?_, h.spelled, h.no_name⟩
      exact absurd hbefore (h.isWord.before_ne_nil (by rwa [h.text_eq]))

/-- References behind a beginning, as members of a list. -/
theorem exists_occurs_iff {ps : List Place} (h : ∀ q : Place, q.Occurs quoted cs ↔ q ∈ ps) :
    (∃ q : Place, q.Occurs quoted cs ∧ p = q.behind u) ↔ p ∈ ps.map (.behind u) := by
  simp only [List.mem_map, h, eq_comm]

end Place

/-! ## Parts -/

/-- A part of a text with regard to its references. -/
inductive Part where
  /-- Characters that are copied. -/
  | copied (cs : List Char)
  /-- A reference. -/
  | reference (run : List Char)
  deriving DecidableEq, Repr

namespace Part

/-- The characters that a part is written with when `f` replaces references. -/
def replaced (f : List Char → List Char) : Part → List Char
  | .copied cs => cs
  | .reference run => f run

/-- The characters of a part. -/
def chars (part : Part) : List Char := part.replaced fun run => run

/-- The places of the references among parts. -/
def places : List Part → List Place
  | [] => []
  | .copied cs :: ps => (places ps).map (.behind cs)
  | .reference run :: ps => ⟨[], run, ps.flatMap chars⟩ :: (places ps).map (.behind run)

/-- The references among parts stand one behind the other. -/
theorem pairwise_places (ps : List Part) :
    (places ps).Pairwise fun p q => p.stop ≤ q.start := by
  have hbehind {u : List Char} {ps : List Place} (h : ps.Pairwise fun p q => p.stop ≤ q.start) :
      (ps.map (Place.behind u)).Pairwise fun p q => p.stop ≤ q.start := by
    refine h.map _ fun p q hle => ?_
    rw [Place.stop_behind, Place.start_behind]
    exact Nat.add_le_add_left hle _
  induction ps with
  | nil => exact .nil
  | cons part ps ih =>
    cases part with
    | copied cs => exact hbehind ih
    | reference run =>
      refine List.pairwise_cons.2 ⟨fun q hq => ?_, hbehind ih⟩
      obtain ⟨p, -, rfl⟩ := List.mem_map.1 hq
      rw [Place.start_behind, Place.stop]
      exact Nat.le_trans (Nat.le_of_eq (Nat.zero_add _)) (Nat.le_add_right _ _)

end Part

/-- Pieces with the references marked among them. -/
def partsOf : List Piece → List Part
  | [] => []
  | .word run :: .plain '(' :: ps => .copied run :: .copied ['('] :: partsOf ps
  | .word run :: ps => (if isReference run then .reference run else .copied run) :: partsOf ps
  | .plain c :: ps => .copied [c] :: partsOf ps

/-- A formula text taken apart at its references. -/
def parts (formula : List Char) : List Part := partsOf (pieces formula)

/-- Pieces that begin with a word that no parenthesis follows. -/
theorem partsOf_cons_word {w : List Char} {ps : List Piece} (h : ∀ qs, ps ≠ .plain '(' :: qs) :
    partsOf (.word w :: ps) =
      (if isReference w then .reference w else .copied w) :: partsOf ps := by
  rw [partsOf]
  exact fun qs hqs => h qs hqs

/-- A word at the beginning of a text is marked if it is a reference and no name. -/
theorem partsOf_word {w rest : List Char} (hw : IsRun w)
    (hrest : ∀ c ∈ rest.head?, Text.isWord c = false) :
    partsOf (piecesFrom false (w ++ rest)) =
      (if isReference w = true ∧ rest.head? ≠ some '(' then .reference w else .copied w) ::
        partsOf (piecesFrom false rest) := by
  by_cases hname : rest.head? = some '('
  · obtain ⟨cs, rfl⟩ := List.head?_eq_some_iff.1 hname
    rw [piecesFrom_name cs hw.1 hw.2, partsOf, piecesFrom_plain cs (by decide), partsOf,
      if_neg fun h => h.2 rfl]
    rfl
  · have hparen : ∀ qs, piecesFrom false rest ≠ .plain '(' :: qs := by
      refine piecesFrom_ne_paren fun d hd => ⟨hrest d hd, ?_⟩
      rintro rfl
      exact hname hd
    rw [piecesFrom_word hw.1 hw.2 hrest, partsOf_cons_word hparen]
    simp only [ne_eq, hname, not_false_eq_true, and_true]

/-- Rewriting replaces the parts that are marked. -/
theorem joinWith_eq (f : List Char → List Char) (ps : List Piece) :
    joinWith f ps = (partsOf ps).flatMap (Part.replaced f) := by
  fun_induction partsOf ps with
  | case1 => rfl
  | case2 run ps ih =>
    rw [joinWith, ih]
    rfl
  | case3 run ps hname ih =>
    rw [joinWith_cons_word f hname, List.flatMap_cons, ih]
    split <;> rfl
  | case4 c ps ih =>
    rw [joinWith, ih]
    rfl

/-- The references among pieces are the runs that are marked. -/
theorem referencesOf_eq_runs (ps : List Piece) :
    referencesOf ps = (Part.places (partsOf ps)).map Place.run := by
  fun_induction partsOf ps with
  | case1 => rfl
  | case2 run ps ih =>
    rw [referencesOf, ih, Part.places, Part.places, Place.map_run_behind, Place.map_run_behind]
  | case3 run ps hname ih =>
    rw [referencesOf_cons_word hname, ih]
    split
    · rw [Part.places, List.map_cons, Place.map_run_behind]
    · rw [Part.places, Place.map_run_behind]
  | case4 c ps ih => rw [referencesOf, ih, Part.places, Place.map_run_behind]

/-- The parts of a text make up the text. -/
theorem flatMap_chars (quoted : Bool) (cs : List Char) :
    (partsOf (piecesFrom quoted cs)).flatMap Part.chars = cs :=
  (joinWith_eq _ _).symm.trans (joinWith_self quoted cs)

/-- The references of a text are the places at which it is taken apart. -/
theorem occurs_iff_mem_places {quoted : Bool} {cs : List Char} {p : Place} :
    p.Occurs quoted cs ↔ p ∈ Part.places (partsOf (piecesFrom quoted cs)) := by
  induction quoted, cs using text_induction generalizing p with
  -- A step takes the same thing off the text and off its places.
  | nil quoted =>
    refine iff_of_false (fun h => ?_) List.not_mem_nil
    have hnil := h.text_eq
    rw [Place.text, List.append_eq_nil_iff, List.append_eq_nil_iff] at hnil
    exact h.isWord.isRun.1 hnil.2.1
  | quoted c cs ih =>
    rw [piecesFrom, if_pos rfl, partsOf, Place.occurs_quoted, Part.places]
    exact Place.exists_occurs_iff fun q => ih
  | plain c cs hc ih =>
    rw [piecesFrom_plain cs hc, partsOf, Place.occurs_plain hc, Part.places]
    exact Place.exists_occurs_iff fun q => ih
  | word w rest hne hw hrest ih =>
    rw [partsOf_word ⟨hne, hw⟩ hrest, Place.occurs_word ⟨hne, hw⟩ hrest, ← isReference_iff,
      Place.exists_occurs_iff fun q => ih rest (List.suffix_refl _)]
    split
    · rename_i hreference
      rw [Part.places, List.mem_cons, flatMap_chars, and_iff_left hreference]
    · rename_i hreference
      rw [Part.places, or_iff_right fun h => hreference h.2]

end Address

end Worksheet
