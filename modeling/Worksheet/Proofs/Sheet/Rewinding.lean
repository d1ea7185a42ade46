import Worksheet.Proofs.Sheet.Reloading
import Worksheet.Proofs.Sheet.Timeline

/-!
# Undoing Everything

Where a session ends up when all that it recorded is undone.

Undoing is a walk back along the recorded states, whatever lies between them, so
the walk ends at the state that was recorded first. That is the state before the
first change that was made, and the question is whether it is also the state that
the session began with. Commands about the session do not matter to it. Typing
that goes on does: it changes the cells, and the history does not take notice.

Typing puts the state before it aside, and a text that is finished has that state
recorded, no matter into which cell it is typed. Any other change records the
present state, with all that was typed into it, and drops what was put aside. So
everything comes back if and only if the first change is a text that is finished,
or nothing that was typed before it made a difference.

## Main definitions

* `Sheet.entriesOf`: What a command puts into the history.
* `Sheet.entries`: What commands put into the history, the last state first.
* `Sheet.firstChange?`: The first change that commands make, and the sheet it is
  made to.

## Theorems

* `Sheet.past_runAll`: The history after commands.
* `Sheet.rewind`: Undoing walks back along what was recorded.
* `Sheet.rests_firstChange`, `Sheet.stateBefore_firstChange`: What is recorded first.
* `Sheet.rewind_runAll`: Where undoing everything ends.
-/

namespace Worksheet

namespace Command

/-- Is the command neither an undoing nor a redoing? -/
def goesOn (c : Command) : Bool := c.role != .undo && c.role != .redo

end Command

namespace Sheet

variable {s r : Sheet} {c : Command} {commands : List Command}

/-! ## What is recorded -/

/-- Does a command make a change? -/
def Makes (s : Sheet) (c : Command) : Prop := c.role = .transaction ∧ (s.run c).2 = .applied

instance : Decidable (s.Makes c) := inferInstanceAs (Decidable (_ ∧ _))

/-- What a command puts into the history. -/
def entriesOf (s : Sheet) (c : Command) : List Snapshot :=
  if s.Makes c then [s.stateBefore c] else []

/-- What commands put into the history, the last state first. -/
def entries (s : Sheet) : List Command → List Snapshot
  | [] => []
  | c :: cs => entries (s.run c).1 cs ++ s.entriesOf c

/-- The first change that commands make, and the sheet it is made to. -/
def firstChange? (s : Sheet) : List Command → Option (Sheet × Command)
  | [] => none
  | c :: cs => if s.Makes c then some (s, c) else firstChange? (s.run c).1 cs

/-- What stays the same until a change is made: the history, and the state that
    typing goes back to. -/
structure Rests (s s' : Sheet) : Prop where
  history : s'.history = s.history
  setAside : s'.pending.getD s'.snapshot = s.pending.getD s.snapshot
  settings : s'.settings = s.settings

theorem Rests.trans {s s' s'' : Sheet} (h : Rests s s') (h' : Rests s' s'') : Rests s s'' :=
  ⟨h'.history.trans h.history, h'.setAside.trans h.setAside, h'.settings.trans h.settings⟩

/-- A command that goes on and makes no change leaves the history alone, and the
    state that typing goes back to. -/
theorem rests_run (hc : c.goesOn = true) (hmakes : ¬s.Makes c) : Rests s (s.run c).1 := by
  cases hrole : c.role with
  | undo | redo => simp [Command.goesOn, hrole] at hc
  | session =>
    have hsame := run_session s hrole
    exact ⟨hsame.history, by rw [hsame.pending, hsame.snapshot], hsame.settings⟩
  | input =>
    by_cases hs : s.isWritable = true
    · have haside := run_input hs hrole
      exact ⟨haside.history, by rw [haside.pending, Option.getD_some], haside.settings⟩
    · rw [run_input_ignored hs hrole]
      exact ⟨rfl, rfl, rfl⟩
  | transaction =>
    have hrefused : (s.run c).2 ≠ .applied := fun happlied => hmakes ⟨hrole, happlied⟩
    rw [(run_transaction s c hrole).1 hrefused]
    exact ⟨rfl, rfl, rfl⟩

/-- A change that is made leaves behind what every transaction does. -/
theorem committed_of_makes (h : s.Makes c) : Committed s (s.stateBefore c) (s.run c).1 := by
  have hrun := allOrNothing_run s h.1
  have happlied := h.2
  generalize s.run c = result at hrun happlied ⊢
  cases hrun with
  | refused hrefused => exact absurd happlied hrefused
  | made hmade => exact hmade

/-- A command puts into the history what it records. -/
theorem past_run (hc : c.goesOn = true) :
    (s.run c).1.history.past = (s.entriesOf c).map Snapshot.toText ++ s.history.past := by
  unfold entriesOf
  by_cases hmakes : s.Makes c
  · rw [if_pos hmakes, (committed_of_makes hmakes).history]
    rfl
  · rw [if_neg hmakes, (rests_run hc hmakes).history]
    rfl

/-- Commands put into the history what they record, in front of what was there. -/
theorem past_runAll (hcommands : ∀ c ∈ commands, c.goesOn = true) :
    (s.runAll commands).history.past =
      (s.entries commands).map Snapshot.toText ++ s.history.past := by
  induction commands generalizing s with
  | nil => rfl
  | cons c cs ih =>
    obtain ⟨hc, hcs⟩ := List.forall_mem_cons.1 hcommands
    have hrest : (s.runAll (c :: cs)).history.past = _ := ih (s := (s.run c).1) hcs
    rw [hrest, past_run hc, entries, List.map_append, List.append_assoc]

/-- The state that is recorded first is the one before the first change. -/
theorem getLast?_entries :
    (s.entries commands).getLast? = (s.firstChange? commands).map fun p => p.1.stateBefore p.2 := by
  induction commands generalizing s with
  | nil => rfl
  | cons c cs ih =>
    rw [entries, firstChange?, entriesOf]
    by_cases hmakes : s.Makes c
    · rw [if_pos hmakes, if_pos hmakes, List.getLast?_append]
      rfl
    · rw [if_neg hmakes, if_neg hmakes, List.append_nil, ih]

/-! ## Up to the first change -/

/-- Nothing that the history knows of happens before the first change. -/
theorem rests_firstChange (hcommands : ∀ c ∈ commands, c.goesOn = true)
    (hfirst : s.firstChange? commands = some (r, c)) : Rests s r ∧ r.Makes c := by
  induction commands generalizing s with
  | nil => cases hfirst
  | cons c' cs ih =>
    obtain ⟨hc', hcs⟩ := List.forall_mem_cons.1 hcommands
    rw [firstChange?] at hfirst
    by_cases hmakes : s.Makes c'
    · rw [if_pos hmakes] at hfirst
      cases hfirst
      exact ⟨⟨rfl, rfl, rfl⟩, hmakes⟩
    · rw [if_neg hmakes] at hfirst
      exact (ih hcs hfirst).imp_left (rests_run hc' hmakes).trans

/-- What the first change records: a text that is finished goes back to where the
    session began, and any other change to where it came to. -/
theorem stateBefore_firstChange (hpending : s.pending = none)
    (hcommands : ∀ c ∈ commands, c.goesOn = true)
    (hfirst : s.firstChange? commands = some (r, c)) :
    r.stateBefore c = if c.isTyping then s.snapshot else r.snapshot := by
  obtain ⟨hrests, hmakes⟩ := rests_firstChange hcommands hfirst
  have haside : r.pending.getD r.snapshot = s.snapshot := by
    rw [hrests.setAside, hpending, Option.getD_none]
  have hrole := hmakes.1
  cases c with
  | typeText c text state | typeActive text state => cases state with
    | input => cases hrole
    | finished => exact haside
  | _ => rfl

/-- A command that goes on leaves the settings alone. -/
theorem settings_run (hc : c.goesOn = true) : (s.run c).1.settings = s.settings := by
  by_cases hmakes : s.Makes c
  · exact (committed_of_makes hmakes).settings
  · exact (rests_run hc hmakes).settings

theorem settings_runAll (hcommands : ∀ c ∈ commands, c.goesOn = true) :
    (s.runAll commands).settings = s.settings := by
  induction commands generalizing s with
  | nil => rfl
  | cons c cs ih =>
    obtain ⟨hc, hcs⟩ := List.forall_mem_cons.1 hcommands
    exact (ih (s := (s.run c).1) hcs).trans (settings_run hc)

/-- What is recorded comes back as it was if it can be read back. What was put aside
    is a state like the others, unless it was there before. -/
theorem restorable_entries (hlen : Dimensioned s)
    (haside : (s.pending.getD s.snapshot).Legible →
      (s.pending.getD s.snapshot).Restorable s.settings)
    (hcommands : ∀ c ∈ commands, c.goesOn = true) {d : Snapshot} (hd : d ∈ s.entries commands)
    (hlegible : d.Legible) : d.Restorable s.settings := by
  have hpresent {s : Sheet} (hlen : Dimensioned s) (hlegible : s.snapshot.Legible) :
      s.snapshot.Restorable s.settings :=
    restorable_snapshot hlen (Snapshot.ofText?_toText hlegible)
  induction commands generalizing s with
  | nil => cases hd
  | cons c cs ih =>
    obtain ⟨hc, hcs⟩ := List.forall_mem_cons.1 hcommands
    rcases List.mem_append.1 hd with hlater | hnow
    · rw [← settings_run hc]
      refine ih (dimensioned_run hlen c) ?_ hcs hlater
      by_cases hmakes : s.Makes c
      · rw [(committed_of_makes hmakes).pending]
        exact hpresent (dimensioned_run hlen c)
      · have hrests := rests_run hc hmakes
        rw [hrests.setAside, hrests.settings]
        exact haside
    · -- A change records the state that was put aside, or the present one.
      rw [entriesOf] at hnow
      split at hnow
      · rw [List.mem_singleton.1 hnow] at hlegible ⊢
        unfold stateBefore at hlegible ⊢
        split at hlegible
        · exact haside hlegible
        · exact haside hlegible
        · exact hpresent hlen hlegible
      · cases hnow

/-! ## Going back -/

/-- Undoing goes back along the states on top of the history, and ends at the last of
    them. -/
theorem rewind (hs : s.isWritable = true) {states : List Snapshot} {rest : List String}
    (hpast : s.history.past = states.map Snapshot.toText ++ rest)
    (hstates : ∀ d ∈ states, d.Restorable s.settings) :
    (∀ k < states.length, (s.runAll (List.replicate k .undo)).undo.2 = .applied) ∧
      (s.runAll (List.replicate states.length .undo)).snapshot =
        states.getLast?.getD s.snapshot := by
  induction states generalizing s with
  | nil => exact ⟨fun k hk => absurd hk (Nat.not_lt_zero k), rfl⟩
  | cons d states ih =>
    obtain ⟨hd, hrest⟩ := List.forall_mem_cons.1 hstates
    have hundo := undo_eq hs hpast hd.reads
    -- One step back leads to a sheet with one state less on top of its history.
    have hback : s.undo.1.snapshot = d := by
      rw [hundo]
      exact snapshot_restore hd
    have hih := ih (s := s.undo.1) (by rw [hundo]; exact hs) (by rw [hundo]; rfl)
      (by rw [hundo]; exact hrest)
    refine ⟨fun k hk => ?_, ?_⟩
    · cases k with
      | zero =>
        have happlied : s.undo.2 = .applied := by rw [hundo]; rfl
        exact happlied
      | succ k => exact hih.1 k (Nat.lt_of_succ_lt_succ hk)
    · have hlast := hih.2
      rw [hback] at hlast
      rw [List.getLast?_cons, Option.getD_some]
      exact hlast

/-- After a session that made a change, every state it put into the history can be
    undone, and that leads to the state before the first change, with what was typed
    until then, unless that change is itself a text that is finished. So it leads back
    to where the session began if and only if it begins with a text that is finished,
    or nothing that was typed before the first change made a difference. -/
theorem rewind_runAll (name : String) (settings : Settings) (past : List Action) {s : Sheet}
    (hs : s = (Sheet.new name settings).actAll past) (hpending : s.pending = none)
    (commands : List Command) (hcommands : ∀ c ∈ commands, c.goesOn = true)
    (hlegible : ∀ d ∈ s.entries commands, d.Legible) {r : Sheet} {c : Command}
    (hfirst : s.firstChange? commands = some (r, c)) :
    let t := s.runAll commands
    let n := t.history.past.length - s.history.past.length
    (∀ k < n, (t.runAll (List.replicate k .undo)).undo.2 = .applied) ∧
      (t.runAll (List.replicate n .undo)).snapshot =
        (if c.isTyping then s.snapshot else r.snapshot) ∧
      ((t.runAll (List.replicate n .undo)).snapshot = s.snapshot ↔
        c.isTyping = true ∨ r.snapshot = s.snapshot) := by
  intro t n
  have hlen : Dimensioned s := by
    rw [hs]
    exact (steady_actAll ⟨fun _ => rfl, id, id⟩ past).2
  obtain ⟨hrests, hmakes⟩ := rests_firstChange hcommands hfirst
  have hwritable : t.isWritable = true := by
    rw [isWritable, settings_runAll hcommands, ← hrests.settings]
    exact (committed_of_makes hmakes).writable
  have hpast : t.history.past = _ := past_runAll hcommands
  have hn : n = (s.entries commands).length := by
    simp only [n, hpast, List.length_append, List.length_map, Nat.add_sub_cancel_right]
  have hstates : ∀ d ∈ s.entries commands, d.Restorable t.settings := fun d hd => by
    rw [settings_runAll hcommands]
    refine restorable_entries hlen (fun h => ?_) hcommands hd (hlegible d hd)
    rw [hpending, Option.getD_none] at h ⊢
    exact restorable_snapshot hlen (Snapshot.ofText?_toText h)
  have hrewind := rewind hwritable hpast hstates
  -- The walk ends at the state that the first change recorded.
  rw [getLast?_entries, hfirst, Option.map_some, Option.getD_some,
    stateBefore_firstChange hpending hcommands hfirst, ← hn] at hrewind
  refine ⟨hrewind.1, hrewind.2, ?_⟩
  rw [hrewind.2]
  cases c.isTyping <;> simp

/-- A text is typed, the freeze is set, and only then is the text finished. Both changes
    are undone, and the sheet is left with what was typed first. -/
theorem rewind_runAll_interrupted :
    let s := Sheet.new "" {}
    let t := s.runAll [.typeText ⟨0, 0⟩ "n" .input, .setFreeze ⟨1, 1⟩,
      .typeText ⟨0, 0⟩ "new" .finished]
    t.history.past.length = 2 ∧
      (∀ k < 2, (t.runAll (List.replicate k .undo)).undo.2 = .applied) ∧
      (t.runAll (List.replicate 2 .undo)).snapshot ≠ s.snapshot := by
  intro s t
  have hrewind := rewind_runAll "" {} [] (s := s) rfl rfl [.typeText ⟨0, 0⟩ "n" .input,
    .setFreeze ⟨1, 1⟩, .typeText ⟨0, 0⟩ "new" .finished] (by decide) (by decide) rfl
  have hn : t.history.past.length - s.history.past.length = 2 := rfl
  simp only [t] at hn
  simp only [hn] at hrewind
  exact ⟨hn, hrewind.1, fun h => absurd (hrewind.2.2.1 h) (by decide)⟩

end Sheet

end Worksheet
