import Worksheet.Proofs.Formula.Following
import Worksheet.Proofs.Formula.Step

/-!
# Reading Texts Side by Side

Converting a text that follows another one gives tokens that follow.

The texts are read along the relation between them. Outside words they have
the same characters, and the states keep corresponding because the choice of a
step looks at nothing in which they differ. A word is read as a whole: it goes
into the run on both sides, behind what is already there, and the runs keep
corresponding because no word begins where a cell has just been read. That is
what `Joins` says and what the texts provide.

## Main definitions

* `gather`: Reading a word.
* `Joins`, `Ready`: What must hold between a state and the rest of the text.

## Theorems

* `feed_follows`, `gather_follows`, `name_follows`: One character and one word.
* `read_follows`: A whole text.
* `postfixOf_follows`: The tokens of formulas correspond.
-/

namespace Worksheet

namespace Formula

namespace Converter

variable {move : CellRef → CellRef} {s s' : Converter}

/-! ## Characters outside words -/

/-- The factor that a sign is turned into corresponds to itself. -/
theorem minusOne_follows : TokenFollows move (.operand "-1") (.operand "-1") := by
  have hone : BodyFollows move ['1'] ['1'] := .same (by decide)
  have htoken := (RunFollows.mk true hone (List.all_eq_true.1 (by decide))
    (List.all_eq_true.1 (by decide))).token
  exact htoken

/-- An opening parenthesis keeps states corresponding, if the names in front of it
    correspond. -/
theorem openParen_follows {negative : Bool} {body body' : List Char}
    (h : StateFollows move { s with run := [] } { s' with run := [] })
    (hrun : s.run = (signChars negative ++ body).reverse)
    (hrun' : s'.run = (signChars negative ++ body').reverse)
    (hbody : ∀ c ∈ body, isGathered c = true) (hbody' : ∀ c ∈ body', isGathered c = true)
    (hnil : body = [] ↔ body' = [])
    (hnames : NameFollows (String.ofList body) (String.ofList body')) :
    StateFollows move s.openParen s'.openParen := by
  -- The sign is the same on both sides, so a factor is put out on both or on neither.
  have hsign : StateFollows move (({ s with run := [] } : Converter).factorSign negative)
      (({ s' with run := [] } : Converter).factorSign negative) := by
    cases negative with
    | false => exact h
    | true => exact pushOp_follows .mul (put_follows minusOne_follows h)
  rw [openParen_eq hrun hbody, openParen_eq hrun' hbody']
  unfold openFrame frame
  rw [← hsign.output.length_eq]
  refine { hsign with stack := .cons ?_ hsign.stack }
  by_cases hb : body = []
  · rw [if_pos hb, if_pos (hnil.1 hb)]
    exact .paren
  · rw [if_neg hb, if_neg fun hb' => hb (hnil.2 hb')]
    exact .call _ _ _ hnames

/-- A character outside words keeps runs corresponding. -/
theorem snoc_follows {c : Char} (h : StateFollows move s s') (hc : isGathered c = true)
    (hstray : isAlnum c = false) :
    StateFollows move { s with run := c :: s.run, previous := some c }
      { s' with run := c :: s'.run, previous := some c } := by
  have hrun : RunFollows move (c :: s.run) (c :: s'.run) := by
    have hr := h.run
    revert hr
    generalize s.run = run
    generalize s'.run = run'
    intro hr
    cases hr with
    | mk negative hb hbody hbody' =>
      have hsnoc := RunFollows.mk negative (hb.snoc hc hstray)
        (by simpa [or_imp, forall_and] using ⟨hbody, hc⟩)
        (by simpa [or_imp, forall_and] using ⟨hbody', hc⟩)
      simpa using hsnoc
  exact { h with run := hrun, previous := .inl rfl }

/-- So does a sign. -/
theorem minus_follows (h : StateFollows move s s') :
    StateFollows move { s with run := ['-'], previous := some '-' }
      { s' with run := ['-'], previous := some '-' } :=
  { h with
    run := .mk true (.same nil_spells_none) (by simp) (by simp)
    previous := .inl rfl }

/-- Reading the same character outside words keeps states corresponding. -/
theorem feed_follows {c : Char} (h : StateFollows move s s') (hc : isAlnum c = false)
    (hop : c ≠ '<' ∧ c ≠ '>' ∧ c ≠ '=')
    (hparen : c = '(' → ∀ d ∈ s.run.head?, isAlnum d = false)
    (hranges : ∀ r ∈ (s.feed c).ranges, RangeFollows move s.rangeLimit r) :
    StateFollows move (s.feed c) (s'.feed c) := by
  -- The four facts that choose the step are the same on both sides, so both take one step.
  have hminus : decide (s'.run = ['-']) = decide (s.run = ['-']) :=
    decide_eq_decide.2 h.run.eq_minus_iff.symm
  have hempty : decide (s'.run = []) = decide (s.run = []) :=
    decide_eq_decide.2 h.run.eq_nil_iff.symm
  have hjoined : decide (s'.previous = some '&') = decide (s.previous = some '&') :=
    decide_eq_decide.2 h.previous_eq_iff
  rw [feed_eq_perform] at hranges ⊢
  rw [feed_eq_perform, hminus, hempty, hjoined, h.expectsOperand_eq]
  have hcause := stepOf_cause c (s.run = ['-']) (s.run = []) s.expectsOperand
    (s.previous = some '&')
  revert hcause hranges
  generalize stepOf c _ _ _ _ = step
  intro hranges hcause
  cases step with
  | skip => exact h
  | quote =>
    exact { flush_follows h hranges with previous := .inl rfl, quote := rfl }
  | gather d =>
    rcases hcause with halnum | ⟨rfl, hgathered⟩
    · rw [hc] at halnum
      exact absurd halnum (by simp)
    · exact snoc_follows h (hgathered hop) hc
  | cancel => exact { h with run := runFollows_nil, previous := .inl rfl }
  | sign =>
    rcases hcause with ⟨rfl, -⟩
    exact minus_follows h
  | spell =>
    have hf := put_follows (.quoted (String.singleton c)) (flush_follows h hranges)
    exact { hf with previous := .inl rfl }
  | operate op =>
    exact { pushOp_follows op (flush_follows h hranges) with previous := .inl rfl }
  | opening =>
    have hr := h.run
    generalize hrun : s.run = run at hr
    generalize hrun' : s'.run = run' at hr
    cases hr with
    | mk negative hb hbody hbody' =>
      rename_i body body'
      -- Here nothing follows the body, so only its last character matters.
      have hdocks : Docks body [] := by
        intro d hd
        refine ⟨hparen hcause d ?_, fun _ e he => absurd he (by simp)⟩
        rw [hrun, List.head?_reverse, List.getLast?_append, Option.mem_def.1 hd]
        rfl
      have hnames := hb.names (w := []) (by simp) hdocks
      rw [List.append_nil, List.append_nil] at hnames
      have hf := openParen_follows { h with run := runFollows_nil } hrun hrun' hbody hbody'
        hb.eq_nil_iff hnames
      exact { hf with previous := .inl rfl }
  | closing =>
    exact { closeParen_follows (flush_follows h hranges) with previous := .inl rfl }
  | comma =>
    exact { comma_follows (flush_follows h hranges) with previous := .inl rfl }
  -- A colon may still drop the start of a range, but the ranges are those of the run's end.
  | colon =>
    have hf := colon_follows (flush_follows h (by rw [← (colon_frame s).2.2.2]; exact hranges))
    exact { hf with previous := .inl rfl }

/-! ## Words -/

/-- Read a word. -/
def gather (s : Converter) (w : List Char) : Converter :=
  { s with run := (w.map Text.upper).reverse ++ s.run, previous := w.getLast?.or s.previous }

/-- The text may be read after the run: a word or a parenthesis follows neither a
    letter nor a digit, and no letter follows a point. -/
def Joins (run cs : List Char) : Prop :=
  ∀ c ∈ cs.head?, Text.isWord c = true ∨ c = '(' →
    ∀ d ∈ run.head?, isAlnum d = false ∧ (d = '.' → Text.isLetter c = false)

/-- A word that may be read after a run may begin after its text. -/
theorem Joins.docks {negative : Bool} {run body w rest : List Char} (h : Joins run (w ++ rest))
    (hrun : run = (signChars negative ++ body).reverse) (hne : w ≠ [])
    (hw : ∀ c ∈ w, Text.isWord c = true) : Docks body (w.map Text.upper) := by
  intro d hd
  rcases List.exists_cons_of_ne_nil hne with ⟨c, cs, rfl⟩
  have hhead : d ∈ run.head? := by
    rw [hrun, List.head?_reverse, List.getLast?_append, Option.mem_def.1 hd]
    rfl
  rcases h c (by simp) (.inl (hw c (by simp))) d hhead with ⟨halnum, hpoint⟩
  refine ⟨halnum, fun hd e he => ?_⟩
  rw [List.map_cons, List.head?_cons, Option.mem_some_iff] at he
  rw [← he, Text.isLetter_upper]
  exact hpoint hd

/-- Words follow in capitals as well. -/
theorem WordFollows.upper {w w' : List Char} (h : Address.WordFollows move w w') :
    Address.WordFollows move (w.map Text.upper) (w'.map Text.upper) := by
  unfold Address.WordFollows
  rw [CellRef.ofChars?_map_upper_eq, CellRef.ofChars?_map_upper_eq]
  rcases h with ⟨hnone, rfl⟩ | hcell
  · exact .inl ⟨hnone, rfl⟩
  · exact .inr hcell

/-- A word that follows gathers. -/
theorem WordFollows.gathered {w w' : List Char} (h : Address.WordFollows move w w')
    (hw : ∀ c ∈ w, Text.isWord c = true) : ∀ c ∈ w', isGathered c = true := by
  rcases h with ⟨-, rfl⟩ | ⟨c, -, hc⟩
  · exact fun c hc => isGathered_of_isWord (hw c hc)
  · exact fun d hd => isGathered_of_isAlnum (cell_isAlnum hc d hd)

/-- After words that follow, the last characters correspond. -/
theorem PreviousFollows.gather {w w' : List Char} (h : Address.WordFollows move w w')
    {p p' : Option Char} (hp : PreviousFollows p p') :
    PreviousFollows (w.getLast?.or p) (w'.getLast?.or p') := by
  rcases h with ⟨-, rfl⟩ | ⟨c, hc, hc'⟩
  · cases w'.getLast? with
    | none => exact hp
    | some d => exact .inl rfl
  -- A cell is moved: each notation ends with a letter or a digit, though not with the same.
  · have hne {v : List Char} {c : CellRef} (hv : CellRef.ofChars? v = some c) :
        ∃ d, v.getLast? = some d ∧ isAlnum d = true := by
      rcases cell_head hv with ⟨e, he, -⟩
      have hv' : v ≠ [] := List.ne_nil_of_mem (List.mem_of_mem_head? he)
      exact ⟨_, List.getLast?_eq_some_getLast hv', cell_isAlnum hv _ (List.getLast_mem hv')⟩
    rcases hne hc with ⟨d, hd, halnum⟩
    rcases hne hc' with ⟨d', hd', halnum'⟩
    rw [hd, hd']
    exact .inr ⟨d, d', rfl, rfl, halnum, halnum'⟩

/-- A run grows at its head. -/
theorem reverse_gather (negative : Bool) (body w : List Char) :
    (signChars negative ++ (body ++ w)).reverse = w.reverse ++
      (signChars negative ++ body).reverse := by
  rw [← List.append_assoc, List.reverse_append]

/-- Reading words that follow keeps states corresponding. -/
theorem gather_follows {w w' rest : List Char} (h : StateFollows move s s') (hne : w ≠ [])
    (hw : ∀ c ∈ w, Text.isWord c = true) (hword : Address.WordFollows move w w')
    (hjoins : Joins s.run (w ++ rest)) : StateFollows move (s.gather w) (s'.gather w') := by
  have hrun : RunFollows move ((w.map Text.upper).reverse ++ s.run)
      ((w'.map Text.upper).reverse ++ s'.run) := by
    have hr := h.run
    generalize hs : s.run = run at hr
    generalize hs' : s'.run = run' at hr
    rw [hs] at hjoins
    cases hr with
    | mk negative hb hbody hbody' =>
      have hupper := forall_upper fun c hc => isGathered_of_isWord (hw c hc)
      have hupper' := forall_upper (WordFollows.gathered hword hw)
      have happend := RunFollows.mk negative
        (hb.append hbody hupper hupper' (WordFollows.upper hword) (hjoins.docks rfl hne hw))
        (by rw [List.forall_mem_append]; exact ⟨hbody, hupper⟩)
        (by rw [List.forall_mem_append]; exact ⟨hbody', hupper'⟩)
      rw [reverse_gather, reverse_gather] at happend
      exact happend
  exact { h with run := hrun, previous := h.previous.gather hword }

/-- So does reading the same name and its parenthesis, even if one is the name of a
    function and would be a cell elsewhere. -/
theorem name_follows {w rest : List Char} (h : StateFollows move s s') (hne : w ≠ [])
    (hw : ∀ c ∈ w, Text.isWord c = true) (hjoins : Joins s.run (w ++ rest)) :
    StateFollows move ((s.gather w).feed '(') ((s'.gather w).feed '(') := by
  rw [feed_paren, feed_paren]
  have hr := h.run
  generalize hs : s.run = run at hr
  generalize hs' : s'.run = run' at hr
  rw [hs] at hjoins
  cases hr with
  | mk negative hb hbody hbody' =>
    rename_i body body'
    have hupper := forall_upper fun c hc => isGathered_of_isWord (hw c hc)
    have hrun {t : Converter} {body : List Char}
        (ht : t.run = (signChars negative ++ body).reverse) :
        (t.gather w).run = (signChars negative ++ (body ++ w.map Text.upper)).reverse := by
      rw [reverse_gather, ← ht]
      rfl
    have hnil (body : List Char) : ¬ body ++ w.map Text.upper = [] := by
      simp [hne]
    -- The name itself may be a cell that moves, so the states are compared without their runs.
    have hempty : StateFollows move { s.gather w with run := [] }
        { s'.gather w with run := [] } := by
      refine { h with run := runFollows_nil, previous := ?_ }
      show PreviousFollows (w.getLast?.or s.previous) (w.getLast?.or s'.previous)
      rw [List.getLast?_eq_some_getLast hne]
      exact .inl rfl
    have hopen := openParen_follows hempty (hrun hs) (hrun hs')
      (by rw [List.forall_mem_append]; exact ⟨hbody, hupper⟩)
      (by rw [List.forall_mem_append]; exact ⟨hbody', hupper⟩)
      (iff_of_false (hnil body) (hnil body')) (hb.names hupper (hjoins.docks rfl hne hw))
    exact { hopen with previous := .inl rfl }

/-! ## Texts -/

/-- A word does not begin with the second half of a comparison. -/
theorem ne_comparison_of_isWord {c : Char} (h : Text.isWord c = true) : c ≠ '=' ∧ c ≠ '>' := by
  refine ⟨?_, ?_⟩ <;> rintro rfl <;> exact absurd h (by decide)

/-- Texts that follow go on with the same comparison. -/
theorem Follows.comparison {cs cs' : List Char} (h : Address.Follows move false cs cs') (c : Char) :
    comparison c cs'.head? = comparison c cs.head? ∧
      Address.Follows move false (afterComparison c cs) (afterComparison c cs') := by
  -- Texts that do not begin with a second half are left as they are.
  have hleft {cs cs' : List Char} (h : Address.Follows move false cs cs')
      (hcs : ∀ d ∈ cs.head?, d ≠ '=' ∧ d ≠ '>') (hcs' : ∀ d ∈ cs'.head?, d ≠ '=' ∧ d ≠ '>') :
      Converter.comparison c cs'.head? = Converter.comparison c cs.head? ∧
        Address.Follows move false (afterComparison c cs) (afterComparison c cs') := by
    rw [(comparison_of_head hcs).1, (comparison_of_head hcs').1, (comparison_of_head hcs).2,
      (comparison_of_head hcs').2]
    exact ⟨rfl, h⟩
  have hword {w : List Char} (cs : List Char) (hne : w ≠ [])
      (hw : ∀ d ∈ w.head?, Text.isWord d = true) :
      ∀ d ∈ (w ++ cs).head?, d ≠ '=' ∧ d ≠ '>' := by
    intro d hd
    rw [List.head?_append_of_ne_nil _ hne] at hd
    exact ne_comparison_of_isWord (hw d hd)
  cases h with
  | nil => exact hleft (.nil false) nofun nofun
  | plain hplain hspace hpoint h =>
    rename_i d cs cs'
    -- The next character is the same on both sides, so both comparisons take it or neither.
    by_cases hd : d = '=' ∨ d = '>'
    · have hquote : (d == '"') = false := by rcases hd with rfl | rfl <;> decide
      refine ⟨rfl, ?_⟩
      rw [afterComparison, afterComparison, List.head?_cons, List.head?_cons]
      split
      · rw [hquote] at h
        exact h
      · exact .plain hplain hspace hpoint h
    · have hnot : ∀ e ∈ some d, e ≠ '=' ∧ e ≠ '>' := by
        rintro e ⟨⟩
        exact ⟨fun h => hd (.inl h), fun h => hd (.inr h)⟩
      exact hleft (.plain hplain hspace hpoint h) hnot hnot
  | name hne hw h =>
    have hhead := fun d hd => hw d (List.mem_of_mem_head? hd)
    exact hleft (.name hne hw h) (hword _ hne hhead) (hword _ hne hhead)
  | word hne hw hnext hfollows h =>
    rename_i w w' cs cs'
    have hhead := fun d hd => hw d (List.mem_of_mem_head? hd)
    have hhead' : w' ≠ [] ∧ ∀ d ∈ w'.head?, Text.isWord d = true := by
      rcases hfollows with ⟨-, rfl⟩ | ⟨r, -, hr'⟩
      · exact ⟨hne, hhead⟩
      · rcases cell_head hr' with ⟨d, hd, hletter⟩
        rcases List.head?_eq_some_iff.1 hd with ⟨ds, rfl⟩
        refine ⟨List.cons_ne_nil _ _, ?_⟩
        rintro e ⟨⟩
        exact Text.isWord_of_isLetter hletter
    exact hleft (.word hne hw hnext hfollows h) (hword _ hne hhead) (hword _ hhead'.1 hhead'.2)

/-- The state has read everything before a text. -/
structure Ready (s : Converter) (quoted : Bool) (cs : List Char) : Prop where
  quote : s.quote.isSome = quoted
  empty : quoted = true → s.run = []
  joins : Joins s.run cs

/-- Without a run there is nothing to join. -/
theorem Ready.of_run_nil {quoted : Bool} {cs : List Char} (hq : s.quote.isSome = quoted)
    (hrun : s.run = []) : Ready s quoted cs :=
  ⟨hq, fun _ => hrun, by simp [Joins, hrun]⟩

/-- A character outside words is followed by any text that may follow it. -/
theorem Ready.feed {c : Char} {cs : List Char} (hq : s.quote = none) (hword : Text.isWord c = false)
    (hspace : c ≠ ' ') (hop : c ≠ '<' ∧ c ≠ '>' ∧ c ≠ '=')
    (hpoint : c = '.' → ∀ d ∈ cs.head?, Text.isLetter d = false) :
    Ready (s.feed c) (c == '"') cs where
  quote := quote_feed hq
  empty hquote := by
    rw [beq_iff_eq] at hquote
    subst hquote
    exact flush_run s
  joins e he _ d hd := by
    have halnum := isAlnum_of_isWord hword
    rcases run_feed halnum hspace d hd with rfl | rfl
    · exact ⟨halnum, fun h => hpoint h e he⟩
    · exact ⟨by decide, fun h => absurd h (by decide)⟩

/-- Quotes leave no run. -/
theorem Ready.feedQuoted {body cs : List Char} (c : Char) (hrun : s.run = []) :
    Ready (s.feedQuoted body c) (c != '"') cs := by
  unfold Converter.feedQuoted
  refine .of_run_nil ?_ ?_
  · by_cases hc : c = '"'
    · simp [hc]
    · simp [hc]
  · split <;> exact hrun

/-- Neither does a comparison. -/
theorem Ready.compared {c : Char} {next : Option Char} {cs : List Char} (hq : s.quote = none) :
    Ready (s.compared c next) false cs := by
  refine .of_run_nil ?_ (flush_run s)
  show s.flush.quote.isSome = false
  rw [flush_quote, hq]
  rfl

/-- Neither does a name with its parenthesis. -/
theorem Ready.named {w cs : List Char} (hq : s.quote = none) :
    Ready ((s.gather w).feed '(') false cs := by
  refine .of_run_nil (quote_feed hq) ?_
  rw [feed_paren]
  exact (openParen_frame _).2.2.1

/-- After a word there is no other one, nor a parenthesis, so nothing has to join. -/
theorem Ready.gather {w cs : List Char} (h : Ready s false (w ++ cs))
    (hnext : ∀ c ∈ cs.head?, Text.isWord c = false ∧ c ≠ '(') :
    Ready (s.gather w) false cs where
  quote := h.quote
  empty hquote := absurd hquote (by simp)
  joins c hc hstart := by
    rcases hnext c hc with ⟨hword, hparen⟩
    rcases hstart with hstart | hstart
    · rw [hword] at hstart
      exact absurd hstart (by simp)
    · exact absurd hstart hparen

/-- A name is read together with its parenthesis: without it, the word might be a
    cell. -/
theorem read_name {w : List Char} (hq : s.quote = none) (hw : ∀ c ∈ w, Text.isWord c = true)
    (cs : List Char) : s.read (w ++ '(' :: cs) = ((s.gather w).feed '(').read cs := by
  rw [reads_gathered hq fun c hc => isGathered_of_isWord (hw c hc)]
  exact read_cons hq (by decide)

/-- Quotes do not change the limit. -/
theorem rangeLimit_feedQuoted (s : Converter) (body : List Char) (c : Char) :
    (s.feedQuoted body c).rangeLimit = s.rangeLimit := by
  unfold feedQuoted
  split <;> rfl

/-- Reading the same quoted character keeps states corresponding. -/
theorem feedQuoted_follows {body : List Char} (c : Char) (h : StateFollows move s s') :
    StateFollows move (s.feedQuoted body c) (s'.feedQuoted body c) := by
  unfold feedQuoted
  split
  · have hput := put_follows (.quoted (String.ofList body.reverse)) h
    exact { hput with quote := rfl }
  · exact { h with quote := rfl }

/-- So does reading the same comparison. -/
theorem compared_follows {c : Char} {next next' : Option Char} (h : StateFollows move s s')
    (hnext : comparison c next' = comparison c next)
    (hranges : ∀ r ∈ (s.compared c next).ranges, RangeFollows move s.rangeLimit r) :
    StateFollows move (s.compared c next) (s'.compared c next') := by
  have hflush : StateFollows move s.flush s'.flush := flush_follows h hranges
  unfold compared
  rw [hnext]
  exact { compareWith_follows _ hflush with previous := .inl rfl }

/-- Reading texts that follow keeps states corresponding. The induction is on the
    length of the text, since a comparison takes two characters at once. -/
theorem read_follows {limit : Nat} {quoted : Bool} {cs cs' : List Char}
    (hf : Address.Follows move quoted cs cs')
    (h : StateFollows move s s') (hready : Ready s quoted cs) (hlimit : s.rangeLimit = limit)
    (hranges : ∀ r ∈ (s.read cs).ranges, RangeFollows move limit r) :
    StateFollows move (s.read cs) (s'.read cs') ∧ (s.read cs).rangeLimit = limit := by
  induction hlen : cs.length using Nat.strongRecOn generalizing s s' quoted cs cs' with
  | ind n ih =>
    subst hlen
    -- What is replaced by now is replaced in the end.
    have hsofar {t : Converter} {ds : List Char} (heq : s.read cs = t.read ds) :
        ∀ r ∈ t.ranges, RangeFollows move s.rangeLimit r := by
      rw [hlimit]
      rw [heq] at hranges
      exact fun r hr => hranges r (ranges_read t ds hr)
    cases hf with
    | nil => exact ⟨h, hlimit⟩
    | quoted hf =>
      rename_i c cs cs'
      rcases Option.isSome_iff_exists.1 hready.quote with ⟨body, hq⟩
      rw [read_quoted hq] at hranges ⊢
      rw [read_quoted (h.quote.trans hq)]
      exact ih cs.length (by simp) hf (feedQuoted_follows c h)
        (.feedQuoted c (hready.empty rfl)) ((rangeLimit_feedQuoted s body c).trans hlimit)
        hranges rfl
    | plain hword hspace hpoint hf =>
      rename_i c cs cs'
      have hq : s.quote = none := by simpa using hready.quote
      have hq' : s'.quote = none := h.quote.trans hq
      -- A comparison is read apart from the other characters, because it may take two.
      by_cases hop : c = '<' ∨ c = '>' ∨ c = '='
      · have hquote : (c == '"') = false := by rcases hop with rfl | rfl | rfl <;> decide
        rw [hquote] at hf
        rcases Follows.comparison hf c with ⟨hcomparison, hrest⟩
        have hread : s.read (c :: cs) = (s.compared c cs.head?).read (afterComparison c cs) :=
          read_comparison hq hop
        have hshort := length_afterComparison c cs
        have hstate := compared_follows h hcomparison (hsofar hread)
        rw [hread] at hranges ⊢
        rw [read_comparison hq' hop]
        exact ih _ (by simp; omega) hrest hstate (.compared hq)
          ((flush_rangeLimit s).trans hlimit) hranges rfl
      · have hne : c ≠ '<' ∧ c ≠ '>' ∧ c ≠ '=' :=
          ⟨fun h => hop (.inl h), fun h => hop (.inr (.inl h)), fun h => hop (.inr (.inr h))⟩
        have hread : s.read (c :: cs) = (s.feed c).read cs := read_cons hq hne
        have hstate : StateFollows move (s.feed c) (s'.feed c) := by
          refine feed_follows h (isAlnum_of_isWord hword) hne ?_ (hsofar hread)
          rintro rfl d hd
          exact (hready.joins '(' (by simp) (.inr rfl) d hd).1
        rw [hread] at hranges ⊢
        rw [read_cons hq' hne]
        exact ih cs.length (by simp) hf hstate (.feed hq hword hspace hne hpoint)
          ((rangeLimit_feed s c).trans hlimit) hranges rfl
    | name hne hw hf =>
      rename_i w cs cs'
      have hq : s.quote = none := by simpa using hready.quote
      rw [read_name hq hw] at hranges ⊢
      rw [read_name (h.quote.trans hq) hw]
      exact ih cs.length (by simp; omega) hf (name_follows h hne hw hready.joins) (.named hq)
        ((rangeLimit_feed _ _).trans hlimit) hranges rfl
    | word hne hw hnext hword hf =>
      rename_i w w' cs cs'
      have hq : s.quote = none := by simpa using hready.quote
      have hpos := List.length_pos_iff.2 hne
      rw [reads_gathered hq fun c hc => isGathered_of_isWord (hw c hc)] at hranges ⊢
      rw [reads_gathered (h.quote.trans hq) (WordFollows.gathered hword hw)]
      exact ih cs.length (by simp; omega) hf (gather_follows h hne hw hword hready.joins)
        (hready.gather hnext) hlimit hranges rfl

/-- The end of the text puts out corresponding tokens. -/
theorem finish_follows (h : StateFollows move s s')
    (hranges : ∀ r ∈ (if s.quote = none then s.flush.ranges else s.ranges),
      RangeFollows move s.rangeLimit r) :
    List.Forall₂ (TokenFollows move) s.finish s'.finish := by
  unfold finish
  rw [h.quote]
  cases hq : s.quote with
  | none =>
    rw [if_pos hq] at hranges
    have hflush := flush_follows h hranges
    exact List.forall₂_reverse_iff.2 (drain_follows hflush.stack hflush.output)
  | some body =>
    have hput := put_follows (.quoted (String.ofList body.reverse)) h
    exact List.forall₂_reverse_iff.2 (drain_follows hput.stack hput.output)

end Converter

open Converter in
/-- The tokens of formulas correspond, if the formulas do and every range that is
    replaced is moved as a whole. -/
theorem postfixOf_follows {move : CellRef → CellRef} {limit : Nat} {body body' : List Char}
    (hf : Address.Follows move false body body')
    (hranges : ∀ r ∈ expandedRanges limit body, RangeFollows move limit r) :
    List.Forall₂ (TokenFollows move) (postfixOf limit body) (postfixOf limit body') := by
  have hstart : StateFollows move { rangeLimit := limit } { rangeLimit := limit } :=
    ⟨rfl, .nil, .nil, runFollows_nil, .inl rfl, rfl, rfl⟩
  have hready : Ready { rangeLimit := limit } false body := .of_run_nil rfl rfl
  have hread : ∀ r ∈ (({ rangeLimit := limit } : Converter).read body).ranges,
      RangeFollows move limit r := by
    intro r hr
    refine hranges r ?_
    unfold expandedRanges
    simp only
    split
    · exact ranges_flush _ hr
    · exact hr
  rcases read_follows hf hstart hready rfl hread with ⟨hstate, hlimit⟩
  refine finish_follows hstate ?_
  rw [hlimit]
  exact hranges

end Formula

end Worksheet
