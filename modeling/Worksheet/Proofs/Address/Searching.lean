import Worksheet.Proofs.Address.Occurrences

/-!
# References Found by Searching

Rewriting a text by looking for quotes and then for a pattern.

A text can be rewritten without cutting it into words. It is split at its
quotes, the quoted parts are copied, and every segment outside quotes is
searched for a pattern: a word boundary, one to three letters, digits, a word
boundary. The searching is left open. All that is asked of a search is that it
finds the leftmost match and goes on behind it, and there is only one list of
places that such a search can give.

References are replaced by something that may have effects of its own, such as
keeping a list of what it was asked for. Its calls then happen in the order of
the text, one for each reference, whichever way the text is walked.

## Main definitions

* `Boundary`, `Place.Matches`: The pattern.
* `Leftmost`: Matches found one after another.
* `rewriteSegment`, `rewriteText`: Rewriting by searching.
* `rewriteParts`: Rewriting part by part.
* `wordsFrom`: A search that goes from word to word.

## Theorems

* `matches_iff`: A match is a word that is spelled like a reference.
* `Leftmost.unique`: All searches find the same.
* `leftmost_words`: Going from word to word is a search.
* `rewriteText_eq`: Rewriting by searching is rewriting part by part.
* `mapReferences_parts`: What is rewritten in a text, and in which order.
-/

namespace Worksheet

namespace Address

/-! ## The pattern -/

/-- A word boundary: a word character on one side, and another character or none on the other. -/
def Boundary (before after : List Char) : Prop :=
  before.getLast?.any Text.isWord ≠ after.head?.any Text.isWord

namespace Place

variable {p q : Place} {segment : List Char}

/-- A match of the pattern: letters and digits between word boundaries. -/
structure Matches (segment : List Char) (p : Place) : Prop where
  text_eq : p.text = segment
  starts : Boundary p.before (p.run ++ p.after)
  spelled : IsSpelled p.run
  ends : Boundary (p.before ++ p.run) p.after

end Place

/-- A run that is spelled like a reference is a word. -/
theorem IsSpelled.isRun {run : List Char} (h : IsSpelled run) : IsRun run := by
  obtain ⟨letters, digits, rfl, ⟨hpos, -, hletters⟩, -, hdigits⟩ := h
  refine ⟨fun hnil => ?_, fun c hc => ?_⟩
  · rw [(List.append_eq_nil_iff.1 hnil).1] at hpos
    cases hpos
  · rcases List.mem_append.1 hc with hc | hc
    · exact Text.isWord_of_isLetter (hletters c hc)
    · exact Text.isWord_of_isDecimal (hdigits c hc)

/-- Before a word there is a boundary just when the word does not go on to the left. -/
theorem boundary_left_iff {before run after : List Char} (hrun : IsRun run) :
    Boundary before (run ++ after) ↔ ∀ c ∈ before.getLast?, Text.isWord c = false := by
  obtain ⟨c, cs, rfl⟩ := List.exists_cons_of_ne_nil hrun.1
  have hc := hrun.2 c List.mem_cons_self
  unfold Boundary
  cases before.getLast? <;> simp [hc]

/-- After a word there is a boundary just when the word does not go on to the right. -/
theorem boundary_right_iff {before run after : List Char} (hrun : IsRun run) :
    Boundary (before ++ run) after ↔ ∀ c ∈ after.head?, Text.isWord c = false := by
  have hlast := List.getLast?_eq_some_getLast hrun.1
  have hc := hrun.2 _ (List.getLast_mem hrun.1)
  unfold Boundary
  rw [List.getLast?_append, hlast, Option.some_or]
  cases after.head? <;> simp [hc]

/-- A match is a word that is as long as it can be and spelled like a reference. -/
theorem matches_iff {segment : List Char} {p : Place} :
    p.Matches segment ↔ p.text = segment ∧ p.IsWord ∧ IsSpelled p.run := by
  constructor
  · rintro ⟨htext, hstarts, hspelled, hends⟩
    have hrun := hspelled.isRun
    exact ⟨htext, ⟨hrun, (boundary_left_iff hrun).1 hstarts, (boundary_right_iff hrun).1 hends⟩,
      hspelled⟩
  · rintro ⟨htext, hword, hspelled⟩
    have hrun := hword.isRun
    exact ⟨htext, (boundary_left_iff hrun).2 hword.starts, hspelled,
      (boundary_right_iff hrun).2 hword.ends⟩

/-- Matches that begin at one offset are the same. -/
theorem Place.Matches.eq_of_start {segment : List Char} {p q : Place} (hp : p.Matches segment)
    (hq : q.Matches segment) (h : p.start = q.start) : p = q := by
  rw [matches_iff] at hp hq
  have htext := hp.1.trans hq.1.symm
  exact hp.2.1.eq_of_before hq.2.1 htext (List.append_inj_left htext h)

/-! ## Searching -/

/-- The matches that are found from an offset on: the leftmost one, and then those from where
    it ends on. -/
inductive Leftmost (segment : List Char) : Nat → List Place → Prop where
  | done {start : Nat} (h : ∀ p : Place, p.Matches segment → p.start < start) :
    Leftmost segment start []
  | next {start : Nat} {p : Place} {ps : List Place} (hp : p.Matches segment)
    (hstart : start ≤ p.start)
    (hleast : ∀ q : Place, q.Matches segment → start ≤ q.start → p.start ≤ q.start) :
    Leftmost segment p.stop ps → Leftmost segment start (p :: ps)

/-- All searches find the same. -/
theorem Leftmost.unique {segment : List Char} {start : Nat} {ps qs : List Place}
    (hp : Leftmost segment start ps) (hq : Leftmost segment start qs) : ps = qs := by
  induction hp generalizing qs with
  | done h =>
    cases hq with
    | done => rfl
    | next hq hstart => exact absurd (h _ hq) (Nat.not_lt.2 hstart)
  | next hp hstart hleast _ ih =>
    cases hq with
    | done h => exact absurd (h _ hp) (Nat.not_lt.2 hstart)
    -- Each search took the leftmost match, and there is one match at an offset.
    | next hq hstart' hleast' hrest =>
      obtain rfl := hp.eq_of_start hq
        (Nat.le_antisymm (hleast _ hq hstart') (hleast' _ hp hstart))
      rw [ih hrest]

/-- Where no match begins, a search may just as well start later. -/
theorem Leftmost.of_later {segment : List Char} {start start' : Nat} {ps : List Place}
    (hle : start ≤ start')
    (hnone : ∀ p : Place, p.Matches segment → start ≤ p.start → start' ≤ p.start)
    (h : Leftmost segment start' ps) : Leftmost segment start ps := by
  cases h with
  | done h =>
    refine .done fun p hp => ?_
    by_contra hlt
    exact absurd (hnone p hp (Nat.le_of_not_lt hlt)) (Nat.not_le.2 (h p hp))
  | next hp hstart hleast hrest =>
    exact .next hp (hle.trans hstart) (fun q hq hq' => hleast q hq (hnone q hq hq')) hrest

/-- The matches in `cs`, found by going from word to word; `before` is what stands in front. -/
def wordsFrom (before : List Char) : List Char → List Place
  | [] => []
  | c :: cs =>
    if Text.isWord c then
      let run := c :: cs.takeWhile Text.isWord
      let rest := cs.dropWhile Text.isWord
      (if isReference run then [⟨before, run, rest⟩] else []) ++ wordsFrom (before ++ run) rest
    else wordsFrom (before ++ [c]) cs
termination_by cs => cs.length
decreasing_by
  · have hle := (List.dropWhile_suffix (l := cs) Text.isWord).length_le
    simp only [List.length_cons]
    omega
  · simp

/-- A match that is found behind `u` is behind it as a word. -/
theorem Place.Matches.exists_behind {u cs : List Char} {p : Place} (h : p.Matches (u ++ cs))
    (hu : u.length ≤ p.start) :
    ∃ q : Place, q.text = cs ∧ q.IsWord ∧ IsSpelled q.run ∧ p = q.behind u := by
  obtain ⟨htext, hword, hspelled⟩ := matches_iff.1 h
  obtain ⟨q, hq, rfl⟩ := Place.exists_behind htext hu
  exact ⟨q, hq, hword.of_behind, hspelled, rfl⟩

/-- What stands before a text does not end in a word that the text goes on with. -/
def Apart (before cs : List Char) : Prop :=
  (∀ c ∈ before.getLast?, Text.isWord c = false) ∨ ∀ c ∈ cs.head?, Text.isWord c = false

/-- Going from word to word finds the leftmost matches. -/
theorem leftmost_wordsFrom (before cs : List Char) (h : Apart before cs) :
    Leftmost (before ++ cs) before.length (wordsFrom before cs) := by
  fun_induction wordsFrom before cs with
  | case1 before =>
    refine .done fun p hp => ?_
    by_contra hlt
    obtain ⟨q, hq, hword, -⟩ := hp.exists_behind (Nat.le_of_not_lt hlt)
    exact hword.before_ne_nil (by simp [hq]) (List.append_eq_nil_iff.1 hq).1
  | case2 before c cs hc run rest ih =>
    have hrun : IsRun run := ⟨List.cons_ne_nil _ _, (takeWhile_word cs hc).1⟩
    obtain ⟨hrest, heq⟩ : (∀ d ∈ rest.head?, Text.isWord d = false) ∧ c :: cs = run ++ rest :=
      (takeWhile_word cs hc).2
    clear_value run rest
    have hrest' := ih (.inr hrest)
    rw [heq] at h ⊢
    rw [List.append_assoc] at hrest'
    by_cases hreference : isReference run = true
    -- The match begins where the search begins, so none is further left.
    · rw [if_pos hreference, List.singleton_append]
      have hbefore : ∀ d ∈ before.getLast?, Text.isWord d = false := by
        refine h.resolve_right fun hhead => ?_
        obtain ⟨d, ds, rfl⟩ := List.exists_cons_of_ne_nil hrun.1
        have hd := hrun.2 d List.mem_cons_self
        rw [hhead d rfl] at hd
        cases hd
      refine .next (matches_iff.2 ⟨rfl, ⟨hrun, hbefore, hrest⟩, isReference_iff.1 hreference⟩)
        (Nat.le_refl _) (fun q _ hq => hq) ?_
      rw [List.length_append] at hrest'
      exact hrest'
    -- The word is no match, and none begins in the middle of a word.
    · rw [if_neg hreference, List.nil_append]
      refine hrest'.of_later (by simp) fun p hp hstart => ?_
      obtain ⟨q, hq, hword, hspelled, rfl⟩ := hp.exists_behind hstart
      rcases hword.eq_or_behind hq hrun hrest with rfl | ⟨q, -, rfl⟩
      · exact absurd (isReference_iff.2 hspelled) hreference
      · rw [Place.start_behind, Place.start_behind, List.length_append]
        omega
  | case3 before c cs hc ih =>
    rw [Bool.not_eq_true] at hc
    have hrest := ih (.inl (by simpa using hc))
    rw [List.append_assoc, List.singleton_append] at hrest
    refine hrest.of_later (by simp) fun p hp hstart => ?_
    obtain ⟨q, hq, hword, -, rfl⟩ := hp.exists_behind hstart
    have hne := hword.before_ne_nil (by simpa [hq] using hc)
    have hpos := List.length_pos_iff.2 hne
    rw [Place.start_behind, Place.start, List.length_append, List.length_singleton]
    omega

/-- Going from word to word is a search. -/
theorem leftmost_words (segment : List Char) : Leftmost segment 0 (wordsFrom [] segment) :=
  leftmost_wordsFrom [] segment (.inl (by simp))

/-! ## Rewriting -/

section

variable {M : Type → Type} [Monad M]

/-- Write a part, with `f` asked for what replaces a reference. -/
def Part.replacedM (f : List Char → M (List Char)) : Part → M (List Char)
  | .copied cs => pure cs
  | .reference run => f run

/-- Write a text part by part. -/
def rewriteParts (f : List Char → M (List Char)) (ps : List Part) : M (List Char) :=
  List.flatten <$> ps.mapM (Part.replacedM f)

/-- Write a segment with the places that a search found in it: what stands between them is
    copied, from `last` on, and a run before a parenthesis is a name and is copied as well. -/
def rewriteSegment (f : List Char → M (List Char)) (segment : List Char) (last : Nat) :
    List Place → M (List Char)
  | [] => pure (segment.drop last)
  | p :: ps => do
    let run ← if p.after.head? = some '(' then pure p.run else f p.run
    let rest ← rewriteSegment f segment p.stop ps
    return (segment.take p.start).drop last ++ (run ++ rest)

/-- The quoted part that begins with a quote, and what follows it. Without a second quote all
    is quoted. -/
def afterQuote (cs : List Char) : List Char × List Char :=
  match Text.cutAt '"' cs with
  | some (body, rest) => ('"' :: body ++ ['"'], rest)
  | none => ('"' :: cs, [])

/-- A quoted part is closed by a quote, or nothing follows it. -/
theorem afterQuote_cases (cs : List Char) : ∃ body, '"' ∉ body ∧
    ((∃ rest, cs = body ++ '"' :: rest ∧ afterQuote cs = ('"' :: body ++ ['"'], rest)) ∨
      cs = body ∧ afterQuote cs = ('"' :: body, [])) := by
  unfold afterQuote
  rcases Text.cutAt_cases '"' cs with ⟨hnone, hcut⟩ | ⟨body, rest, hnone, heq, hcut⟩
  · rw [hcut]
    exact ⟨cs, hnone, .inr ⟨rfl, rfl⟩⟩
  · rw [hcut]
    exact ⟨body, hnone, .inl ⟨rest, heq, rfl⟩⟩

theorem length_afterQuote (cs : List Char) : (afterQuote cs).2.length ≤ cs.length := by
  obtain ⟨body, -, ⟨rest, rfl, hquote⟩ | ⟨-, hquote⟩⟩ := afterQuote_cases cs
  · rw [hquote, List.length_append, List.length_cons]
    exact Nat.le_add_left_of_le (Nat.le_succ _)
  · rw [hquote]
    exact Nat.zero_le _

/-- Write a text: what is before the first quote is searched, the quoted part is copied, and
    then the same is done with the rest. -/
def rewriteText (search : List Char → List Place) (f : List Char → M (List Char))
    (cs : List Char) : M (List Char) :=
  match _hcut : Text.cutAt '"' cs with
  | none => rewriteSegment f cs 0 (search cs)
  | some (segment, after) => do
    let head ← rewriteSegment f segment 0 (search segment)
    let tail ← rewriteText search f (afterQuote after).2
    return head ++ ((afterQuote after).1 ++ tail)
termination_by cs.length
decreasing_by
  have hle := length_afterQuote after
  rcases Text.cutAt_cases '"' cs with ⟨-, hcut⟩ | ⟨ds, es, -, rfl, hcut⟩
  · simp_all
  · obtain ⟨rfl, rfl⟩ : ds = segment ∧ es = after := by simp_all
    rw [List.length_append, List.length_cons]
    omega

variable [LawfulMonad M] {f : List Char → M (List Char)}

/-! ### Part by part -/

theorem rewriteParts_nil : rewriteParts f [] = pure [] := by
  rw [rewriteParts, List.mapM_nil, map_pure]
  rfl

/-- Writing parts one behind the other. -/
theorem rewriteParts_append (ps qs : List Part) :
    rewriteParts f (ps ++ qs) =
      rewriteParts f ps >>= fun head => (head ++ ·) <$> rewriteParts f qs := by
  simp only [rewriteParts, List.mapM_append, map_eq_pure_bind, bind_assoc, pure_bind,
    List.flatten_append]

theorem rewriteParts_cons (part : Part) (ps : List Part) :
    rewriteParts f (part :: ps) =
      part.replacedM f >>= fun head => (head ++ ·) <$> rewriteParts f ps := by
  simp only [rewriteParts, List.mapM_cons, map_eq_pure_bind, bind_assoc, pure_bind,
    List.flatten_cons]

theorem rewriteParts_copied (cs : List Char) (ps : List Part) :
    rewriteParts f (.copied cs :: ps) = (cs ++ ·) <$> rewriteParts f ps := by
  rw [rewriteParts_cons, Part.replacedM, pure_bind]

/-- Without effects, parts are written as the text that the references make with what replaces
    them. -/
theorem rewriteParts_pure (g : List Char → List Char) (ps : List Part) :
    rewriteParts (fun run => (pure (g run) : M (List Char))) ps =
      pure (ps.flatMap (Part.replaced g)) := by
  induction ps with
  | nil => exact rewriteParts_nil
  | cons part ps ih =>
    cases part with
    | copied cs =>
      rw [rewriteParts_copied, ih, map_pure]
      rfl
    | reference run =>
      rw [rewriteParts_cons, Part.replacedM, pure_bind, ih, map_pure]
      rfl

/-- Quoted characters are copied. -/
theorem rewriteParts_quoted {body : List Char} (h : '"' ∉ body) (cs : List Char) :
    rewriteParts f (partsOf (piecesFrom true (body ++ cs))) =
      (body ++ ·) <$> rewriteParts f (partsOf (piecesFrom true cs)) := by
  induction body with
  | nil => simp
  | cons c body ih =>
    rw [List.mem_cons, not_or] at h
    have hquote : (c != '"') = true := bne_iff_ne.2 (Ne.symm h.1)
    rw [List.cons_append, piecesFrom, if_pos rfl, hquote, partsOf, rewriteParts_copied, ih h.2]
    simp

/-- A quoted part is copied, and the text goes on outside quotes behind it. -/
theorem rewriteParts_afterQuote (cs : List Char) :
    rewriteParts f (partsOf (piecesFrom false ('"' :: cs))) =
      ((afterQuote cs).1 ++ ·) <$> rewriteParts f (parts (afterQuote cs).2) := by
  rw [piecesFrom_plain cs (by decide), partsOf, rewriteParts_copied, parts, pieces]
  obtain ⟨body, hbody, ⟨rest, rfl, hquote⟩ | ⟨rfl, hquote⟩⟩ := afterQuote_cases cs
  · rw [hquote]
    have hopen : rewriteParts f (partsOf (piecesFrom true ('"' :: rest))) =
        (['"'] ++ ·) <$> rewriteParts f (partsOf (piecesFrom false rest)) := by
      rw [piecesFrom, if_pos rfl, partsOf, rewriteParts_copied]
      rfl
    rw [show ('"' == '"') = true from rfl, rewriteParts_quoted hbody, hopen]
    simp
  · rw [hquote]
    have hempty := rewriteParts_quoted (f := f) hbody []
    rw [List.append_nil] at hempty
    rw [show ('"' == '"') = true from rfl, hempty]
    simp [piecesFrom, partsOf]

/-- What is before a quote is taken apart by itself. -/
theorem partsOf_append {segment : List Char} (h : '"' ∉ segment) (cs : List Char) :
    partsOf (piecesFrom false (segment ++ '"' :: cs)) =
      partsOf (piecesFrom false segment) ++ partsOf (piecesFrom false ('"' :: cs)) := by
  generalize hquoted : false = quoted
  induction quoted, segment using text_induction with
  | nil quoted =>
    subst hquoted
    rfl
  | quoted c segment ih => cases hquoted
  | plain c segment hc ih =>
    rw [List.mem_cons, not_or] at h
    have hquote : (c == '"') = false := beq_eq_false_iff_ne.2 (Ne.symm h.1)
    rw [hquote] at ih
    rw [List.cons_append, piecesFrom_plain _ hc, piecesFrom_plain _ hc, hquote, partsOf, partsOf,
      ih h.2 rfl, List.cons_append]
  | word w rest hne hw hrest ih =>
    rw [List.mem_append, not_or] at h
    -- Neither a word nor a parenthesis can begin at the quote, so the word is cut off alike.
    have hhead (c : Char) : (rest ++ '"' :: cs).head? = some c ↔
        rest.head? = some c ∨ rest = [] ∧ c = '"' := by
      cases rest <;> simp [eq_comm]
    have hrest' : ∀ c ∈ (rest ++ '"' :: cs).head?, Text.isWord c = false := by
      intro c hc
      rcases (hhead c).1 hc with hc | ⟨-, rfl⟩
      · exact hrest c hc
      · decide
    have hname : (rest ++ '"' :: cs).head? = some '(' ↔ rest.head? = some '(' :=
      (hhead '(').trans (or_iff_left fun hquote => absurd hquote.2 (by decide))
    rw [List.append_assoc, partsOf_word ⟨hne, hw⟩ hrest', partsOf_word ⟨hne, hw⟩ hrest,
      ih rest (List.suffix_refl _) h.2 rfl, List.cons_append]
    simp only [ne_eq, hname]

/-- A segment in which references were found by going from word to word is written part by
    part. What was passed over since the last of them is still to be copied. -/
theorem rewriteSegment_wordsFrom (before cs : List Char) (h : '"' ∉ cs) :
    ∀ copied gap, before = copied ++ gap →
      rewriteSegment f (before ++ cs) copied.length (wordsFrom before cs) =
        (gap ++ ·) <$> rewriteParts f (partsOf (piecesFrom false cs)) := by
  fun_induction wordsFrom before cs with
  | case1 before =>
    intro copied gap hbefore
    rw [rewriteSegment, piecesFrom, partsOf, rewriteParts_nil, map_pure, hbefore,
      List.append_nil, List.append_nil, List.drop_left]
  | case2 before c cs hc run rest ih =>
    intro copied gap hbefore
    have hrun : IsRun run := ⟨List.cons_ne_nil _ _, (takeWhile_word cs hc).1⟩
    obtain ⟨hrest, heq⟩ : (∀ d ∈ rest.head?, Text.isWord d = false) ∧ c :: cs = run ++ rest :=
      (takeWhile_word cs hc).2
    clear_value run rest
    rw [heq] at h ⊢
    rw [List.mem_append, not_or] at h
    have ih := ih h.2
    rw [List.append_assoc] at ih
    rw [partsOf_word hrun hrest, rewriteParts_cons]
    by_cases hreference : isReference run = true
    -- The gap ends before the reference, and the next one begins behind it.
    · have hfound := ih (before ++ run) [] (List.append_nil _).symm
      have hgap : ((before ++ (run ++ rest)).take before.length).drop copied.length = gap := by
        rw [List.take_left, hbefore, List.drop_left]
      rw [List.length_append] at hfound
      rw [if_pos hreference, List.singleton_append, rewriteSegment, Place.stop, Place.start, hgap,
        hfound]
      by_cases hname : rest.head? = some '('
      · simp [hname, Part.replacedM]
      · simp [hname, hreference, Part.replacedM]
    -- A word that was not found is passed over.
    · have hpassed := ih copied (gap ++ run) (by rw [hbefore, List.append_assoc])
      rw [if_neg hreference, List.nil_append, hpassed, if_neg fun hmarked => hreference hmarked.1,
        Part.replacedM, pure_bind]
      simp
  | case3 before c cs hc ih =>
    intro copied gap hbefore
    rw [List.mem_cons, not_or] at h
    have hquote : (c == '"') = false := beq_eq_false_iff_ne.2 (Ne.symm h.1)
    have hpassed := ih h.2 copied (gap ++ [c]) (by rw [hbefore, List.append_assoc])
    rw [List.append_assoc, List.singleton_append] at hpassed
    rw [piecesFrom_plain cs (by simpa using hc), hquote, partsOf, rewriteParts_copied, hpassed]
    simp

/-- Rewriting a text by searching is rewriting its parts. -/
theorem rewriteText_eq {search : List Char → List Place}
    (hsearch : ∀ segment, Leftmost segment 0 (search segment)) (cs : List Char) :
    rewriteText search f cs = rewriteParts f (parts cs) := by
  have hsegment {segment : List Char} (h : '"' ∉ segment) :
      rewriteSegment f segment 0 (search segment) = rewriteParts f (parts segment) := by
    rw [(hsearch segment).unique (leftmost_words segment)]
    exact (rewriteSegment_wordsFrom [] segment h [] [] rfl).trans (id_map _)
  -- The induction is on the length of the text, since what follows a quoted part is shorter.
  induction hlen : cs.length using Nat.strongRecOn generalizing cs with
  | ind n ih =>
    subst hlen
    rw [rewriteText]
    rcases Text.cutAt_cases '"' cs with ⟨hnone, hcut⟩ | ⟨segment, after, hnone, rfl, hcut⟩
    · split
      · exact hsegment hnone
      · simp_all
    · split
      · simp_all
      · rename_i segment' after' hcut'
        obtain ⟨rfl, rfl⟩ : segment = segment' ∧ after = after' := by simp_all
        have hle := length_afterQuote after
        have hparts : rewriteParts f (parts (segment ++ '"' :: after)) =
            rewriteParts f (parts segment) >>= fun head => (head ++ ·) <$>
              ((afterQuote after).1 ++ ·) <$> rewriteParts f (parts (afterQuote after).2) := by
          rw [parts, pieces, partsOf_append hnone, rewriteParts_append, rewriteParts_afterQuote]
          rfl
        rw [hsegment hnone, ih (afterQuote after).2.length (by simp; omega) _ rfl, hparts]
        simp only [map_eq_pure_bind, bind_assoc, pure_bind]

/-- Without effects, rewriting by searching is replacing the references. -/
theorem rewriteText_pure {search : List Char → List Place}
    (hsearch : ∀ segment, Leftmost segment 0 (search segment)) (g : List Char → List Char)
    (cs : List Char) :
    rewriteText search (fun run => (pure (g run) : M (List Char))) cs =
      pure (mapReferences g cs) := by
  rw [rewriteText_eq hsearch, rewriteParts_pure, mapReferences, joinWith_eq]
  rfl

end

/-- What is rewritten in a formula text. Taken apart, the text is what is copied and what is
    replaced, in the order in which it stands there; what is replaced are the words outside
    quotes that are spelled like a reference and are no names of functions, each of them once.
    Splitting the text at its quotes and searching the segments outside of them, with any search
    that finds leftmost matches, asks for the same words in the same order, also where asking has
    effects, and copies the same characters. -/
theorem mapReferences_parts (formula : List Char) :
    (parts formula).flatMap Part.chars = formula ∧
      (∀ p : Place, p.Occurs false formula ↔ p ∈ Part.places (parts formula)) ∧
      ((Part.places (parts formula)).Pairwise fun p q => p.stop ≤ q.start) ∧
      references formula = (Part.places (parts formula)).map Place.run ∧
      (∀ f, mapReferences f formula = (parts formula).flatMap (Part.replaced f)) ∧
      mapReferences (fun run => run) formula = formula ∧
      ∀ search : List Char → List Place, (∀ segment, Leftmost segment 0 (search segment)) →
        ∀ (M : Type → Type) [Monad M] [LawfulMonad M],
          (∀ f : List Char → M (List Char), rewriteText search f formula =
            List.flatten <$> (parts formula).mapM (Part.replacedM f)) ∧
          ∀ f : List Char → List Char,
            rewriteText search (fun run => (pure (f run) : M (List Char))) formula =
              pure (mapReferences f formula) := by
  refine ⟨flatMap_chars false formula, fun p => occurs_iff_mem_places, Part.pairwise_places _,
    referencesOf_eq_runs _, fun f => joinWith_eq f _, joinWith_self false formula,
    fun search hsearch M _ _ => ⟨fun f => ?_, fun f => ?_⟩⟩
  · exact rewriteText_eq hsearch formula
  · exact rewriteText_pure hsearch f formula

/-- A function that takes note of what it is asked for is asked for the two references of a
    formula with a function name and a quoted text, from left to right. -/
theorem mapReferences_parts_noted :
    (rewriteText (wordsFrom [])
      (fun run => (do modify (· ++ [run]); return ['x'] : StateM (List (List Char)) (List Char)))
      "=A1+LOG10(b2)&\"C3\"".toList).run [] =
      pure ("=x+LOG10(x)&\"C3\"".toList, [['A', '1'], ['b', '2']]) := by
  have hparts : parts "=A1+LOG10(b2)&\"C3\"".toList =
      [.copied ['='], .reference ['A', '1'], .copied ['+'], .copied ['L', 'O', 'G', '1', '0'],
        .copied ['('], .reference ['b', '2'], .copied [')'], .copied ['&'], .copied ['"'],
        .copied ['C'], .copied ['3'], .copied ['"']] := by
    decide
  rw [((mapReferences_parts _).2.2.2.2.2.2 (wordsFrom []) leftmost_words _).1, hparts]
  simp [Part.replacedM]

end Address

end Worksheet
