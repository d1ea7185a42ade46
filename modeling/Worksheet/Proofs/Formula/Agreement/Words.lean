import Worksheet.Proofs.Formula.Agreement.Steps

/-!
# Words with the Same Landmarks

Words of which one replaces the other keep states agreeing.

A word goes into the run behind what is already there. If no letter or digit comes
next to another one, and no E comes after a point, then the word decides alone whether
the run is a number, and behind other characters it is no cell. So it does not matter
by what the word was replaced.

## Main definitions

* `Meets`: A text may be read after a run.
* `SetOff`: A word may be read after a run.

## Theorems

* `SetOff.worded_of_replaces`: A run is no number before or after a word is replaced in it.
* `gather_agree`: Reading the word.
-/

namespace Worksheet

namespace Formula

namespace Converter

variable {cells named : Bool} {move : CellRef → CellRef} {s s' : Converter}

/-- The text may be read after a run: no letter or digit comes next to another one, and no
    E comes after a point. -/
def Meets (run cs : List Char) : Prop :=
  ∀ c ∈ next? cs, isAlnum c = true →
    ∀ d ∈ run.head?, isAlnum d = false ∧ (d = '.' → Text.upper c ≠ 'E')

/-- A word is set off from the run before it, unless a letter or digit would come next to
    another one or an E after a point. -/
def SetOff (body w : List Char) : Prop :=
  ∀ c ∈ w.head?, isAlnum c = true →
    ∀ d ∈ body.getLast?, isAlnum d = false ∧ (d = '.' → Text.upper c ≠ 'E')

/-- A word that may be read after a run is set off from it. -/
theorem Meets.setOff {run body w cs : List Char} {negative : Bool} (h : Meets run (w ++ cs))
    (hrun : run = (signChars negative ++ body).reverse)
    (hw : ∀ c ∈ w, Text.isWord c = true) : SetOff body w := by
  intro c hc halnum d hd
  obtain ⟨ws, rfl⟩ := List.head?_eq_some_iff.1 hc
  have hspace : c ≠ ' ' := by
    rintro rfl
    exact absurd (hw ' ' List.mem_cons_self) (by decide)
  refine h c (next?_cons _ hspace) halnum d ?_
  rw [hrun, List.head?_reverse, List.getLast?_append, Option.mem_def.1 hd]
  rfl

namespace SetOff

variable {body w w' : List Char}

/-- A letter that is set off in a run makes the run one that is no number. -/
theorem worded {c : Char} {ws : List Char} (h : SetOff body (c :: ws))
    (hletter : Text.isLetter c = true) : Worded (body ++ (c :: ws).map Text.upper) := by
  have hlast := h c rfl (by rw [isAlnum, hletter, Bool.true_or])
  exact ⟨body, Text.upper c, _, rfl, by rwa [Text.isLetter_upper], by simpa using hlast⟩

/-- What replaces a word is set off as well. -/
theorem of_replaces (h : SetOff body w) (hreplaces : Replaces w w') : SetOff body w' := by
  cases hreplaces with
  | same => exact h
  | moved hcell hw hfirst =>
    -- The word begins with the same letter.
    obtain ⟨d, hd, hletter⟩ := cell_head hcell
    have hset := h d hd (by rw [isAlnum, hletter, Bool.true_or])
    rw [hw, List.head?_cons, Option.mem_some_iff] at hd
    subst hd
    rintro e ⟨⟩ -
    rwa [hfirst]
  | lost =>
    rintro e ⟨⟩ halnum
    cases halnum

/-- A word behind a run is no cell. -/
theorem ofChars?_append (h : SetOff body w) (hbody : body ≠ []) (hne : w ≠ []) :
    CellRef.ofChars? (body ++ w.map Text.upper) = none := by
  obtain ⟨c, ws, rfl⟩ := List.exists_cons_of_ne_nil hne
  -- What sets the word off is no letter and no digit, or else the beginning of the word is not.
  cases halnum : isAlnum c with
  | true =>
    have hlast := h c rfl halnum _ (List.getLast?_eq_some_getLast hbody)
    exact ofChars?_eq_none_of_mem (List.mem_append_left _ (List.getLast_mem hbody)) hlast.1
  | false =>
    have hupper : Text.upper c = c :=
      Text.upper_of_not_isLetter (Bool.or_eq_false_iff.1 halnum).1
    exact ofChars?_eq_none_of_mem (d := c) (by simp [hupper]) halnum

/-- If a word is replaced behind a run, the run is no number before or after. -/
theorem worded_of_replaces (h : SetOff body w) (hreplaces : Replaces w w') :
    w' = w ∨ Worded (body ++ w.map Text.upper) ∧ Worded (body ++ w'.map Text.upper) := by
  -- The word is a cell then, so it begins with a letter.
  have hworded {cell : CellRef} (hcell : CellRef.ofChars? w = some cell) :
      Worded (body ++ w.map Text.upper) := by
    obtain ⟨c, hc, hletter⟩ := cell_head hcell
    obtain ⟨ws, rfl⟩ := List.head?_eq_some_iff.1 hc
    exact h.worded hletter
  have hset := h.of_replaces hreplaces
  cases hreplaces with
  | same => exact .inl rfl
  | moved hcell hw hfirst =>
    obtain ⟨c, hc, hletter⟩ := cell_head hcell
    rw [hw, List.head?_cons, Option.mem_some_iff] at hc
    subst hc
    refine .inr ⟨hworded hcell, hset.worded ?_⟩
    rwa [← Text.isLetter_upper, hfirst, Text.isLetter_upper]
  | lost hcell =>
    refine .inr ⟨hworded hcell, body ++ ['#'], 'R', ['E', 'F', '!'], ?_, by decide, ?_⟩
    · rw [List.append_assoc]
      rfl
    · intro d hd
      obtain rfl : '#' = d := by simpa using hd
      decide

end SetOff

/-- Runs agree after words of which one replaces the other. -/
theorem BodyAgree.append {body body' w w' : List Char} (h : BodyAgree cells move named body body')
    (hword : Becomes cells move named w w') (hne : w ≠ []) (hset : SetOff body w)
    (hset' : SetOff body' w) :
    BodyAgree cells move named (body ++ w.map Text.upper) (body' ++ w'.map Text.upper) where
  text := by
    cases named with
    | true =>
      obtain rfl := hword.same rfl
      exact h.text.imp (fun heq => by rw [heq]) fun hworded => absurd hworded.1 (by simp)
    | false =>
      rcases h.text with rfl | ⟨-, hworded, hworded'⟩
      · exact (hset.worded_of_replaces hword.replaces).imp (fun heq => by rw [heq])
          fun hboth => ⟨rfl, hboth⟩
      · exact .inr ⟨rfl, hworded.append _, hworded'.append _⟩
  cell hnamed hcells := by
    by_cases hnil : body = []
    · obtain rfl := h.eq_nil_iff.1 hnil
      rw [hnil, List.nil_append, List.nil_append, CellRef.ofChars?_map_upper_eq,
        CellRef.ofChars?_map_upper_eq]
      exact hword.moves hnamed hcells
    · have hnil' : body' ≠ [] := fun heq => hnil (h.eq_nil_iff.2 heq)
      have hne' := hword.replaces.ne_nil hne
      rw [hset.ofChars?_append hnil hne,
        (hset'.of_replaces hword.replaces).ofChars?_append hnil' hne']
      rfl

/-- Reading words of which one replaces the other keeps states agreeing. -/
theorem gather_agree {w w' cs : List Char}
    (h : StateAgree cells move (opensCall (Address.piecesFrom false (w ++ cs))) s s')
    (hne : w ≠ []) (hw : ∀ c ∈ w, Text.isWord c = true)
    (hnext : ∀ c ∈ cs.head?, Text.isWord c = false)
    (hword : Becomes cells move (opensCall (Address.piecesFrom false cs)) w w')
    (hmeets : Meets s.run (w ++ cs)) (hmeets' : Meets s'.run (w ++ cs)) :
    StateAgree cells move (opensCall (Address.piecesFrom false cs)) (s.gather w)
      (s'.gather w') := by
  rw [opensCall_word hne hw hnext] at h
  have hgathered := fun c hc => isGathered_of_isWord (hw c hc)
  have hgathered' := hword.replaces.gathered hw
  refine { h with run := ?_, previous := ?_ }
  · show RunAgree cells move _ ((w.map Text.upper).reverse ++ s.run)
      ((w'.map Text.upper).reverse ++ s'.run)
    have hr := h.run
    generalize s.run = run at hr hmeets
    generalize s'.run = run' at hr hmeets'
    cases hr with
    | mk negative hb hbody hbody' =>
      have hrun := RunAgree.mk negative
        (hb.append hword hne (hmeets.setOff rfl hw) (hmeets'.setOff rfl hw))
        (List.forall_mem_append.2 ⟨hbody, forall_upper hgathered⟩)
        (List.forall_mem_append.2 ⟨hbody', forall_upper hgathered'⟩)
      rwa [reverse_gather, reverse_gather] at hrun
  · have hne' := hword.replaces.ne_nil hne
    refine .inr ⟨_, _, ?_, ?_, hgathered _ (List.getLast_mem hne),
      hgathered' _ (List.getLast_mem hne')⟩
    · show w.getLast?.or s.previous = _
      rw [List.getLast?_eq_some_getLast hne]
      rfl
    · show w'.getLast?.or s'.previous = _
      rw [List.getLast?_eq_some_getLast hne']
      rfl

end Converter

end Formula

end Worksheet
