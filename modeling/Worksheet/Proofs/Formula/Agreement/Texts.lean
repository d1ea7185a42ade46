import Worksheet.Proofs.Formula.Agreement.Words

/-!
# Texts with the Same Landmarks

Names, numbers and cells stand in the same order in a text that was rewritten.

The texts are read along the relation between them. Outside words they have the same
characters, and a word is read as a whole. What has been read leaves the run in a state
where the next word is set off from it, since the text is aligned.

## Main definitions

* `Primed`: A state has read everything before a text.

## Theorems

* `read_agree`: What a whole text preserves.
* `landmarks_postfixOf`: The landmarks of a rewritten text.
* `names_postfixOf`, `references_postfixOf`: Its names, its numbers and its references.
-/

namespace Worksheet

namespace Formula

namespace Converter

variable {cells named : Bool} {move : CellRef → CellRef} {s s' : Converter}

/-- Rewritten texts go on with the same comparison. -/
theorem Rewritten.comparison {cs cs' : List Char} (h : Rewritten cells move false cs cs')
    (c : Char) :
    comparison c cs'.head? = comparison c cs.head? ∧
      Rewritten cells move false (afterComparison c cs) (afterComparison c cs') := by
  -- Texts that do not begin with a second half are left as they are.
  have hleft {cs cs' : List Char} (h : Rewritten cells move false cs cs')
      (hcs : ∀ d ∈ cs.head?, d ≠ '=' ∧ d ≠ '>') (hcs' : ∀ d ∈ cs'.head?, d ≠ '=' ∧ d ≠ '>') :
      Converter.comparison c cs'.head? = Converter.comparison c cs.head? ∧
        Rewritten cells move false (afterComparison c cs) (afterComparison c cs') := by
    rw [(comparison_of_head hcs).1, (comparison_of_head hcs').1, (comparison_of_head hcs).2,
      (comparison_of_head hcs').2]
    exact ⟨rfl, h⟩
  have hword {w : List Char} (cs : List Char) (hne : w ≠ [])
      (hw : ∀ d ∈ w, isGathered d = true) : ∀ d ∈ (w ++ cs).head?, d ≠ '=' ∧ d ≠ '>' := by
    intro d hd
    rw [List.head?_append_of_ne_nil _ hne] at hd
    have hgathered := isGathered_iff.1 (hw d (List.mem_of_mem_head? hd))
    exact ⟨hgathered.2.2.2.2.2.2.2.1, hgathered.2.2.2.2.2.2.2.2.2.1⟩
  cases h with
  | nil => exact hleft (.nil false) nofun nofun
  | plain hplain hcolon hpoint h =>
    rename_i d cs cs'
    -- The next character is the same on both sides, so both comparisons take it or neither.
    by_cases hd : d = '=' ∨ d = '>'
    · have hquote : (d == '"') = false := by rcases hd with rfl | rfl <;> decide
      refine ⟨rfl, ?_⟩
      rw [afterComparison, afterComparison, List.head?_cons, List.head?_cons]
      split
      · rw [hquote] at h
        exact h
      · exact .plain hplain hcolon hpoint h
    · have hnot : ∀ e ∈ some d, e ≠ '=' ∧ e ≠ '>' := by
        rintro e ⟨⟩
        exact ⟨fun h => hd (.inl h), fun h => hd (.inr h)⟩
      exact hleft (.plain hplain hcolon hpoint h) hnot hnot
  | word hne hw hnext hgap hbecomes h =>
    exact hleft (.word hne hw hnext hgap hbecomes h)
      (hword _ hne fun d hd => isGathered_of_isWord (hw d hd))
      (hword _ (hbecomes.replaces.ne_nil hne) (hbecomes.replaces.gathered hw))

/-- A state has read everything before a text. -/
structure Primed (s : Converter) (quoted : Bool) (cs : List Char) : Prop where
  quote : s.quote.isSome = quoted
  empty : quoted = true → s.run = []
  meets : Meets s.run cs

namespace Primed

variable {quoted : Bool} {cs : List Char}

/-- Without a run everything may come. -/
theorem of_run_nil (hq : s.quote.isSome = quoted) (hrun : s.run = []) : Primed s quoted cs :=
  ⟨hq, fun _ => hrun, by rw [hrun]; exact fun _ _ _ => nofun⟩

/-- A quote leaves no run, and neither does what is quoted. -/
theorem feedQuoted {body : List Char} (c : Char) (h : Primed s true (c :: cs)) :
    Primed (s.feedQuoted body c) (c != '"') cs := by
  have hready : Ready (s.feedQuoted body c) (c != '"') cs := .feedQuoted c (h.empty rfl)
  refine .of_run_nil hready.quote ?_
  unfold Converter.feedQuoted
  split <;> exact h.empty rfl

/-- A comparison leaves no run. -/
theorem compared (c : Char) (next? : Option Char) (hq : s.quote = none) :
    Primed (s.compared c next?) false cs := by
  refine .of_run_nil ?_ (flush_run s)
  show s.flush.quote.isSome = false
  rw [flush_quote, hq]
  rfl

/-- A character outside words sets off what comes. -/
theorem feed {c : Char} (h : Primed s false (c :: cs)) (hword : Text.isWord c = false)
    (hpoint : c = '.' → ∀ d ∈ next? cs, Text.upper d ≠ 'E') :
    Primed (s.feed c) (c == '"') cs where
  quote := quote_feed (by simpa using h.quote)
  empty hquote := by
    rw [beq_iff_eq] at hquote
    subst hquote
    exact flush_run s
  meets := by
    have halnum := isAlnum_of_isWord hword
    by_cases hspace : c = ' '
    · subst hspace
      exact h.meets
    · intro d hd _ e he
      rcases run_feed halnum hspace e he with rfl | rfl
      · exact ⟨halnum, fun h => hpoint h d hd⟩
      · exact ⟨by decide, fun h => absurd h (by decide)⟩

/-- After a word there is no other one. -/
theorem gather {w w' : List Char} (h : Primed s false (w ++ cs)) (hne' : w' ≠ [])
    (hgap : ∀ c ∈ w'.getLast?, isAlnum c = true → ∀ d ∈ next? cs, isAlnum d = false)
    (hpoint : '.' ∉ w') : Primed (s.gather w') false cs where
  quote := h.quote
  empty := nofun
  meets := by
    intro d hd halnum e he
    have hlast := List.getLast?_eq_some_getLast hne'
    have hhead : (s.gather w').run.head? = some (Text.upper (w'.getLast hne')) := by
      show ((w'.map Text.upper).reverse ++ s.run).head? = _
      rw [List.head?_append, List.head?_reverse, List.getLast?_map, hlast]
      rfl
    rw [hhead, Option.mem_some_iff] at he
    subst he
    have hstray : isAlnum (w'.getLast hne') = false := by
      cases hc : isAlnum (w'.getLast hne') with
      | false => rfl
      | true =>
        rw [hgap _ hlast hc d hd] at halnum
        cases halnum
    have hupper : Text.upper (w'.getLast hne') = w'.getLast hne' :=
      Text.upper_of_not_isLetter (Bool.or_eq_false_iff.1 hstray).1
    rw [hupper]
    exact ⟨hstray, fun heq => absurd (heq ▸ List.getLast_mem hne') hpoint⟩

end Primed

/-- Reading the same quoted character keeps states agreeing. -/
theorem feedQuoted_agree {body : List Char} (c : Char) (h : StateAgree cells move named s s') :
    StateAgree cells move named (s.feedQuoted body c) (s'.feedQuoted body c) := by
  unfold feedQuoted
  split
  · exact { h with output := h.output.quoted _, quote := rfl }
  · exact { h with quote := rfl }

/-- A run has ended where a comparison stands. -/
theorem opensCall_comparison {c : Char} (cs : List Char) (hop : c = '<' ∨ c = '>' ∨ c = '=') :
    opensCall (Address.piecesFrom false (c :: cs)) = false := by
  rcases hop with rfl | rfl | rfl <;> rw [opensCall_plain cs (by decide)] <;> rfl

/-- Reading a comparison keeps states agreeing. It ends the run. -/
theorem compared_agree (c : Char) (next? : Option Char) (h : StateAgree cells move false s s') :
    StateAgree cells move named (s.compared c next?) (s'.compared c next?) :=
  { compareWith_agree _ (flush_agree h) with previous := .inl rfl }

/-- Reading an aligned text and what was made of it keeps states agreeing. -/
theorem read_agree {quoted : Bool} {cs cs' : List Char} (hr : Rewritten cells move quoted cs cs')
    (h : StateAgree cells move (opensCall (Address.piecesFrom quoted cs)) s s')
    (hs : Primed s quoted cs) (hs' : Primed s' quoted cs) :
    StateAgree cells move false (s.read cs) (s'.read cs') := by
  -- The induction is on the length of the text, since a comparison takes two characters at once.
  induction hlen : cs.length using Nat.strongRecOn generalizing s s' quoted cs cs' with
  | ind n ih =>
    subst hlen
    cases hr with
    | nil => exact h
    | quoted hr =>
      rename_i c cs cs'
      obtain ⟨body, hq⟩ := Option.isSome_iff_exists.1 hs.quote
      rw [read_quoted hq, read_quoted (h.quote.trans hq)]
      -- Inside quotes there is no run, so it does not matter what comes.
      exact ih cs.length (by simp) hr (feedQuoted_agree c (h.of_run_nil (hs.empty rfl)))
        (hs.feedQuoted c) (hs'.feedQuoted c) rfl
    | plain hword hcolon hpoint hr =>
      rename_i c cs cs'
      have hq : s.quote = none := by simpa using hs.quote
      have hq' : s'.quote = none := h.quote.trans hq
      by_cases hop : c = '<' ∨ c = '>' ∨ c = '='
      · have hquote : (c == '"') = false := by rcases hop with rfl | rfl | rfl <;> decide
        rw [hquote] at hr
        rw [opensCall_comparison cs hop] at h
        obtain ⟨hcomparison, hrest⟩ := Rewritten.comparison hr c
        have hshort := length_afterComparison c cs
        have heq : s'.compared c cs'.head? = s'.compared c cs.head? := by
          unfold compared
          rw [hcomparison]
        rw [read_comparison hq hop, read_comparison hq' hop, heq]
        exact ih _ (by simp; omega) hrest (compared_agree c cs.head? h) (.compared c _ hq)
          (.compared c _ hq') rfl
      · have hne : c ≠ '<' ∧ c ≠ '>' ∧ c ≠ '=' :=
          ⟨fun h => hop (.inl h), fun h => hop (.inr (.inl h)), fun h => hop (.inr (.inr h))⟩
        rw [read_cons hq hne, read_cons hq' hne]
        exact ih cs.length (by simp) hr (feed_agree h hword hne hcolon) (hs.feed hword hpoint)
          (hs'.feed hword hpoint) rfl
    | word hne hw hnext hgap hbecomes hr =>
      rename_i w w' cs cs'
      have hq : s.quote = none := by simpa using hs.quote
      have hpos := List.length_pos_iff.2 hne
      have hne' := hbecomes.replaces.ne_nil hne
      rw [reads_gathered hq fun c hc => isGathered_of_isWord (hw c hc),
        reads_gathered (h.quote.trans hq) (hbecomes.replaces.gathered hw)]
      refine ih cs.length (by simp; omega) hr
        (gather_agree h hne hw hnext hbecomes hs.meets hs'.meets)
        (hs.gather hne hgap (Replaces.same.point_not_mem hw))
        (hs'.gather hne' ?_ (hbecomes.replaces.point_not_mem hw)) rfl
      exact hbecomes.replaces.gap hne hgap

/-- The end of the text leaves the same landmarks. -/
theorem finish_agree (h : StateAgree cells move false s s') :
    OutputAgree cells move s.finish s'.finish := by
  have hdrain {t t' : Converter} (ht : StateAgree cells move false t t') :
      OutputAgree cells move (drain t.stack t.output).reverse
        (drain t'.stack t'.output).reverse := by
    have hout := drain_agree ht.stack ht.output
    unfold OutputAgree at hout ⊢
    rw [landmarks_reverse, landmarks_reverse, hout, List.map_reverse]
  unfold finish
  rw [h.quote]
  cases s.quote with
  | none => exact hdrain (flush_agree h)
  | some body => exact hdrain { h with output := h.output.quoted (String.ofList body.reverse) }

end Converter

variable {cells : Bool} {move : CellRef → CellRef} {body body' : List Char}

open Converter in
/-- An aligned text and what was made of it have the same landmarks, and if cells are looked
    at, these have moved. -/
theorem landmarks_postfixOf (hr : Rewritten cells move false body body') (limit : Nat) :
    landmarks cells (postfixOf limit body') =
      (landmarks cells (postfixOf limit body)).map (Landmark.map move) := by
  have hstart (named : Bool) : StateAgree cells move named { rangeLimit := limit }
      { rangeLimit := limit } := ⟨rfl, .nil, .nil, .inl rfl, fun _ => ⟨rfl, rfl⟩, rfl⟩
  have hprimed : Primed { rangeLimit := limit } false body := .of_run_nil rfl rfl
  exact finish_agree (read_agree hr (hstart _) hprimed hprimed)

/-- Calls keep their names, and numbers are kept. -/
theorem names_postfixOf (hr : Rewritten cells move false body body') (limit : Nat) :
    (postfixOf limit body').filterMap Token.name? = (postfixOf limit body).filterMap Token.name? ∧
      (postfixOf limit body').filterMap Token.number? =
        (postfixOf limit body).filterMap Token.number? := by
  rw [filterMap_name? _ cells, filterMap_name? _ cells, filterMap_number? _ cells,
    filterMap_number? _ cells, landmarks_postfixOf hr limit, List.filterMap_map,
    List.filterMap_map]
  refine ⟨List.filterMap_congr fun l _ => ?_, List.filterMap_congr fun l _ => ?_⟩
  · cases l <;> rfl
  · cases l <;> rfl

/-- References have moved, if they are looked at. -/
theorem references_postfixOf (hr : Rewritten true move false body body') (limit : Nat) :
    (postfixOf limit body').filterMap Token.reference? =
      ((postfixOf limit body).filterMap Token.reference?).map (Prod.map id move) := by
  rw [filterMap_reference?, filterMap_reference?, landmarks_postfixOf hr limit,
    List.filterMap_map, List.map_filterMap]
  refine List.filterMap_congr fun l _ => ?_
  cases l <;> rfl

end Formula

end Worksheet
