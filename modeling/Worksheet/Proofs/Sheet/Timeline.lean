import Mathlib.Tactic.Tauto
import Worksheet.Proofs.RoundTrip
import Worksheet.Proofs.Sheet.Transaction

/-!
# The Timeline of a Session

Undoing and redoing walk along the states that a session has visited.

The history holds texts, and what comes back is read from a text and brought
into a sheet that may have settings of its own. A timeline is what is meant by
all of that: the states before and after the present one, as they were, with
nothing written down or read back. A transaction goes on from the present state
and forgets what came after it, and undoing and redoing go one state back and
forth. The history follows the timeline of the session as long as the states on
it can be read back.

Typing puts the state before it aside, and the history gets that one when the
typing is finished. So the present state of the timeline is the one that was put
aside, and a session that is to be compared with its timeline may not do anything
else before typing is finished.

## Main definitions

* `Timeline`: The states before and after the present one.
* `Timeline.follow`, `Sheet.timeline`: The timeline of a session.
* `Sheet.InputsFinish`: Typing is finished before anything else is done.
* `Snapshot.Restorable`: A state that comes back as it was.
* `Sheet.Tracks`: The history holds the states of a timeline.

## Theorems

* `Sheet.snapshot_restore`: Restoring a state makes it the present one.
* `Sheet.Tracks.run`: Every command keeps to the timeline.
* `Sheet.tracks_runAll`: So does every session.
* `Sheet.undo_redo_timeline`: What undoing and redoing bring back.
-/

namespace Worksheet

/-- The states before and after the present one, the nearest first. -/
structure Timeline where
  past : List Snapshot := []
  present : Snapshot
  future : List Snapshot := []

namespace Timeline

/-- Go on to a new state. What came after the present one is forgotten. -/
def goOn (t : Timeline) (d : Snapshot) : Timeline :=
  ⟨t.present :: t.past, d, []⟩

/-- Go back to the state before the present one, if there is one. -/
def back (t : Timeline) : Timeline :=
  match t.past with
  | [] => t
  | d :: past => ⟨past, d, t.present :: t.future⟩

/-- Go forth to the state after the present one, if there is one. -/
def forth (t : Timeline) : Timeline :=
  match t.future with
  | [] => t
  | d :: future => ⟨t.present :: t.past, d, future⟩

/-- The timeline after a command, given what became of it. Only transactions
    reach new states. -/
def follow (t : Timeline) (c : Command) (result : Sheet × Outcome) : Timeline :=
  match c.role with
  | .undo => t.back
  | .redo => t.forth
  | .transaction => if result.2 = .applied then t.goOn result.1.snapshot else t
  | .session | .input => t

/-- The states of a timeline. -/
def states (t : Timeline) : List Snapshot := t.past ++ t.present :: t.future

theorem states_back {t : Timeline} {d : Snapshot} (h : d ∈ t.back.states) : d ∈ t.states := by
  unfold back at h
  split at h
  · exact h
  · rename_i d' past hpast
    simp only [states, hpast, List.mem_append, List.mem_cons] at h ⊢
    tauto

theorem states_forth {t : Timeline} {d : Snapshot} (h : d ∈ t.forth.states) : d ∈ t.states := by
  unfold forth at h
  split at h
  · exact h
  · rename_i d' future hfuture
    simp only [states, hfuture, List.mem_append, List.mem_cons] at h ⊢
    tauto

theorem states_goOn {t : Timeline} {d d' : Snapshot} (h : d' ∈ (t.goOn d).states) :
    d' = d ∨ d' ∈ t.states := by
  simp only [states, goOn, List.mem_append, List.mem_cons, List.not_mem_nil, or_false] at h ⊢
  tauto

end Timeline

/-- Is a text typed? -/
def Command.isTyping : Command → Bool
  | .typeText _ _ _ | .typeActive _ _ => true
  | _ => false

theorem Command.role_of_isTyping {c : Command} (h : c.isTyping = true) :
    c.role = .input ∨ c.role = .transaction := by
  cases c with
  | typeText c text state | typeActive text state => cases state with
    | input => exact .inl rfl
    | finished => exact .inr rfl
  | _ => cases h

namespace Sheet

/-- The timeline of a session that begins with a sheet and its timeline. -/
def timeline (s : Sheet) (t : Timeline) : List Command → Timeline
  | [] => t
  | c :: cs => timeline (s.run c).1 (t.follow c (s.run c)) cs

/-- Is typing finished before anything else is done? -/
def InputsFinish : List Command → Prop
  | [] => True
  | c :: cs => (c.role = .input → ∃ c' ∈ cs.head?, c'.isTyping = true) ∧ InputsFinish cs

instance decidableInputsFinish : (commands : List Command) → Decidable (InputsFinish commands)
  | [] => .isTrue trivial
  | _ :: cs => have := decidableInputsFinish cs; inferInstanceAs (Decidable (_ ∧ InputsFinish cs))

end Sheet

/-! ## Restoring -/

/-- Does a state come back as it was when it is written down and restored? It can
    be read back, it does not get rows or columns from the settings, and none of
    its rules is left out. -/
structure Snapshot.Restorable (settings : Settings) (d : Snapshot) : Prop where
  reads : Snapshot.ofText? d.toText = some d
  rows : d.rows.len = 0 → settings.rows.len = 0
  cols : d.cols.len = 0 → settings.cols.len = 0
  rules : ∀ r ∈ d.rules, r.refs.isEmpty = false

theorem Rules.saved_ofSaved {rules : List Rule} (h : ∀ r ∈ rules, r.refs.isEmpty = false) :
    (Rules.ofSaved rules).saved = rules := by
  refine List.filter_eq_self.2 fun r hr => ?_
  rw [h r hr]
  rfl

namespace Sheet

/-- A count that may be zero only if the settings say so is kept. -/
theorem count_eq {count least : Nat} (h : count = 0 → least = 0) :
    (if count = 0 then least else count) = count := by
  split
  · rename_i hnone
    rw [h hnone, hnone]
  · rfl

theorem snapshot_restore {s : Sheet} {d : Snapshot} (hd : d.Restorable s.settings) :
    (s.restore d).snapshot = d := by
  simp only [restore, refreshView, snapshot, count_eq hd.rows, count_eq hd.cols,
    Rules.saved_ofSaved hd.rules]

/-- Does a sheet have rows and columns, unless the settings give it none? -/
structure Dimensioned (s : Sheet) : Prop where
  rows : s.rows.len = 0 → s.settings.rows.len = 0
  cols : s.cols.len = 0 → s.settings.cols.len = 0

theorem restorable_snapshot {s : Sheet} (hlen : Dimensioned s)
    (hread : Snapshot.ofText? s.snapshot.toText = some s.snapshot) :
    s.snapshot.Restorable s.settings := by
  refine ⟨hread, hlen.rows, hlen.cols, fun r hr => ?_⟩
  have hsome : (!r.refs.isEmpty) = true := (List.mem_filter.1 hr).2
  rwa [Bool.not_eq_true'] at hsome

theorem dimensioned_restore {s : Sheet} {d : Snapshot} (hd : d.Restorable s.settings) :
    Dimensioned (s.restore d) := by
  have hsnapshot := snapshot_restore hd
  refine ⟨fun h => hd.rows ?_, fun h => hd.cols ?_⟩
  · rw [← hsnapshot]
    exact h
  · rw [← hsnapshot]
    exact h

theorem applied_of_isTyping {s : Sheet} (hs : s.isWritable = true) {c : Command}
    (hc : c.isTyping = true) : (s.run c).2 = .applied := by
  cases c with
  | typeText c text state => simp only [run, typeText, if_pos hs]
  | typeActive text state => simp only [run, typeActive, typeText, if_pos hs]
  | _ => cases hc

/-- What undoing restores, when the nearest entry can be read back. -/
theorem undo_eq {s : Sheet} (hs : s.isWritable = true) {d : Snapshot} {past : List String}
    (hpast : s.history.past = d.toText :: past) (hread : Snapshot.ofText? d.toText = some d) :
    s.undo = s.goTo (.state d ⟨past, s.snapshot.toText :: s.history.future⟩) := by
  rw [undo, if_pos hs, History.undo, hpast]
  simp only [hread]

/-! ## Following the timeline -/

/-- Does the history of a sheet hold the states of a timeline, and is its saved
    state the present one? While a text is typed, the present state is the one
    that was put aside. -/
structure Tracks (s : Sheet) (t : Timeline) : Prop where
  past : s.history.past = t.past.map Snapshot.toText
  future : s.history.future = t.future.map Snapshot.toText
  present : s.pending.getD s.snapshot = t.present
  restorable : ∀ d ∈ t.states, d.Restorable s.settings
  writable : s.isWritable = true
  dimensioned : Dimensioned s

/-- The sheet between the change of its history and the event. -/
theorem tracks_restore {s : Sheet} {d : Snapshot} {past future : List Snapshot}
    {event : Nat → Event} (hpast : s.history.past = past.map Snapshot.toText)
    (hfuture : s.history.future = future.map Snapshot.toText)
    (hstates : ∀ x ∈ (Timeline.mk past d future).states, x.Restorable s.settings)
    (hwritable : s.isWritable = true) :
    Tracks ((s.restore d).emit event) ⟨past, d, future⟩ := by
  have hd := hstates d (List.mem_append_right _ List.mem_cons_self)
  have hlen := dimensioned_restore hd
  exact ⟨hpast, hfuture, snapshot_restore hd, hstates, hwritable, hlen.rows, hlen.cols⟩

namespace Tracks

variable {s : Sheet} {t : Timeline}

theorem snapshot_eq (h : Tracks s t) (hpending : s.pending = none) : s.snapshot = t.present := by
  have hpresent := h.present
  rwa [hpending, Option.getD_none] at hpresent

theorem undo_ignored (h : Tracks s t) (hpast : t.past = []) : s.undo = (s, .ignored) := by
  rw [Sheet.undo, if_pos h.writable, History.undo, h.past, hpast]
  rfl

/-- Undoing goes one state back, and puts the present one before what comes after it. -/
theorem undo_applied (h : Tracks s t) (hpending : s.pending = none) {d : Snapshot}
    {past : List Snapshot} (hpast : t.past = d :: past) :
    s.undo.2 = .applied ∧ Tracks s.undo.1 ⟨past, d, t.present :: t.future⟩ ∧
      s.undo.1.pending = none := by
  have hd := h.restorable d (by simp [Timeline.states, hpast])
  have hundo : s.undo = s.goTo
      (.state d ⟨past.map Snapshot.toText, s.snapshot.toText :: s.history.future⟩) :=
    undo_eq h.writable (by rw [h.past, hpast, List.map_cons]) hd.reads
  rw [hundo]
  -- The texts of the history are those of the timeline, shifted by one.
  refine ⟨rfl, tracks_restore rfl ?_ (fun x hx => h.restorable x ?_) h.writable, rfl⟩
  · simp only [List.map_cons, h.future, h.snapshot_eq hpending]
  · refine Timeline.states_back ?_
    rwa [Timeline.back, hpast]

theorem redo_ignored (h : Tracks s t) (hfuture : t.future = []) : s.redo = (s, .ignored) := by
  rw [Sheet.redo, if_pos h.writable, History.redo, h.future, hfuture]
  rfl

/-- Redoing goes one state forth, and puts the present one after what comes before it. -/
theorem redo_applied (h : Tracks s t) (hpending : s.pending = none) {d : Snapshot}
    {future : List Snapshot} (hfuture : t.future = d :: future) :
    s.redo.2 = .applied ∧ Tracks s.redo.1 ⟨t.present :: t.past, d, future⟩ ∧
      s.redo.1.pending = none := by
  have hd := h.restorable d (by simp [Timeline.states, hfuture])
  have hredo : s.redo = s.goTo
      (.state d ⟨s.snapshot.toText :: s.history.past, future.map Snapshot.toText⟩) := by
    rw [Sheet.redo, if_pos h.writable, History.redo, h.future, hfuture, List.map_cons]
    simp only [hd.reads]
  rw [hredo]
  refine ⟨rfl, tracks_restore ?_ rfl (fun x hx => h.restorable x ?_) h.writable, rfl⟩
  · simp only [List.map_cons, h.past, h.snapshot_eq hpending]
  · refine Timeline.states_forth ?_
    rwa [Timeline.forth, hfuture]

/-- A transaction puts the present state into the history, or leaves everything
    as it was. -/
theorem transaction (h : Tracks s t) {c : Command} (hc : c.role = .transaction)
    (hpending : s.pending = none ∨ c.isTyping = true)
    (hread : Snapshot.ofText? (s.run c).1.snapshot.toText = some (s.run c).1.snapshot) :
    Tracks (s.run c).1 (if (s.run c).2 = .applied then t.goOn (s.run c).1.snapshot else t) ∧
      (s.run c).1.pending = none := by
  -- Whether or not something is put aside, the state before is the present one.
  have hbefore : s.stateBefore c = t.present := by
    rcases hpending with hnone | htyping
    · rw [← h.snapshot_eq hnone]
      unfold stateBefore
      split <;> simp only [hnone, Option.getD_none]
    · rw [← h.present]
      cases c with
      | typeText c text state | typeActive text state => cases state with
        | input => cases hc
        | finished => rfl
      | _ => cases htyping
  -- Typing is never refused here, so nothing stays put aside when a transaction is.
  have happlied : s.pending = none ∨ (s.run c).2 = .applied :=
    hpending.imp_right (applied_of_isTyping h.writable)
  have hrun := allOrNothing_run s hc
  rw [hbefore] at hrun
  generalize s.run c = result at hrun hread happlied ⊢
  cases hrun with
  | refused hrefused =>
    rw [if_neg hrefused]
    exact ⟨h, happlied.resolve_right hrefused⟩
  | @made s' hmade =>
    rw [if_pos rfl]
    -- The new sheet still has rows and columns, so its state can be restored.
    have hlen : Dimensioned s' := by
      constructor
      · rw [hmade.settings]
        exact h.dimensioned.rows ∘ hmade.rows
      · rw [hmade.settings]
        exact h.dimensioned.cols ∘ hmade.cols
    refine ⟨⟨?_, ?_, ?_, fun d hd => ?_, ?_, hlen⟩, hmade.pending⟩
    · simp only [hmade.history, h.past, Timeline.goOn, List.map_cons]
    · simp only [hmade.history, Timeline.goOn, List.map_nil]
    · simp only [hmade.pending, Option.getD_none, Timeline.goOn]
    · rcases Timeline.states_goOn hd with rfl | hd
      · exact restorable_snapshot hlen hread
      · rw [hmade.settings]
        exact h.restorable d hd
    · rw [isWritable, hmade.settings]
      exact h.writable

/-- Typing that goes on leaves the present state the one before it. -/
theorem input (h : Tracks s t) {c : Command} (hc : c.role = .input) : Tracks (s.run c).1 t := by
  have haside := run_input h.writable hc
  refine ⟨?_, ?_, ?_, ?_, ?_, ⟨?_, ?_⟩⟩
  · rw [haside.history, h.past]
  · rw [haside.history, h.future]
  · rw [haside.pending, Option.getD_some, h.present]
  · rw [haside.settings]
    exact h.restorable
  · rw [isWritable, haside.settings]
    exact h.writable
  · rw [haside.rows, haside.settings]
    exact h.dimensioned.rows
  · rw [haside.cols, haside.settings]
    exact h.dimensioned.cols

/-- Commands about the session do not move along the timeline. -/
theorem session (h : Tracks s t) {c : Command} (hc : c.role = .session) :
    Tracks (s.run c).1 t := by
  have hsame := run_session s hc
  -- The cells are part of the saved state, and that is the same.
  have hrows : (s.run c).1.rows = s.rows := congrArg Snapshot.rows hsame.snapshot
  have hcols : (s.run c).1.cols = s.cols := congrArg Snapshot.cols hsame.snapshot
  refine ⟨?_, ?_, ?_, ?_, ?_, ⟨?_, ?_⟩⟩
  · rw [hsame.history, h.past]
  · rw [hsame.history, h.future]
  · rw [hsame.pending, hsame.snapshot, h.present]
  · rw [hsame.settings]
    exact h.restorable
  · rw [isWritable, hsame.settings]
    exact h.writable
  · rw [hrows, hsame.settings]
    exact h.dimensioned.rows
  · rw [hcols, hsame.settings]
    exact h.dimensioned.cols

/-- Every command keeps to the timeline, and only typing that goes on leaves a
    state put aside. -/
theorem run (h : Tracks s t) (c : Command) (hpending : s.pending = none ∨ c.isTyping = true)
    (hread : Snapshot.ofText? (s.run c).1.snapshot.toText = some (s.run c).1.snapshot) :
    Tracks (s.run c).1 (t.follow c (s.run c)) ∧
      ((s.run c).1.pending = none ∨ c.role = .input) := by
  -- Nothing is put aside when anything but typing is done.
  have hnone : c.role ≠ .input → c.role ≠ .transaction → s.pending = none := fun hinput hchange =>
    hpending.resolve_right fun htyping =>
      (Command.role_of_isTyping htyping).elim hinput hchange
  unfold Timeline.follow
  cases hrole : c.role with
  | session =>
    rw [hrole] at hnone
    refine ⟨h.session hrole, .inl ?_⟩
    rw [(run_session s hrole).pending, hnone (by decide) (by decide)]
  | input => exact ⟨h.input hrole, .inr rfl⟩
  | transaction => exact (h.transaction hrole hpending hread).imp_right .inl
  | undo =>
    rw [hrole] at hnone
    have hpending := hnone (by decide) (by decide)
    have hrun : s.run c = s.undo := by
      cases c with
      | undo => rfl
      | typeText c text state | typeActive text state => cases state <;> cases hrole
      | _ => cases hrole
    rw [hrun, Timeline.back]
    cases hpast : t.past with
    | nil =>
      rw [h.undo_ignored hpast]
      exact ⟨h, .inl hpending⟩
    | cons d past => exact (h.undo_applied hpending hpast).2.imp_right .inl
  | redo =>
    rw [hrole] at hnone
    have hpending := hnone (by decide) (by decide)
    have hrun : s.run c = s.redo := by
      cases c with
      | redo => rfl
      | typeText c text state | typeActive text state => cases state <;> cases hrole
      | _ => cases hrole
    rw [hrun, Timeline.forth]
    cases hfuture : t.future with
    | nil =>
      rw [h.redo_ignored hfuture]
      exact ⟨h, .inl hpending⟩
    | cons d future => exact (h.redo_applied hpending hfuture).2.imp_right .inl

end Tracks

/-- A session in which typing is finished before anything else is done keeps to its
    timeline, as long as all states it visits can be read back. -/
theorem tracks_runAll {commands : List Command} {s : Sheet} {t : Timeline} (h : Tracks s t)
    (hinputs : InputsFinish commands)
    (hpending : s.pending = none ∨ ∃ c ∈ commands.head?, c.isTyping = true)
    (hread : ∀ n ≤ commands.length, ∀ d, (s.runAll (commands.take n)).snapshot = d →
      Snapshot.ofText? d.toText = some d) :
    Tracks (s.runAll commands) (timeline s t commands) ∧ (s.runAll commands).pending = none := by
  induction commands generalizing s t with
  | nil =>
    refine ⟨h, hpending.resolve_right ?_⟩
    rintro ⟨c, hc, -⟩
    cases hc
  | cons c cs ih =>
    -- The first command makes the sheet and the timeline that the others begin with.
    have hstep := h.run c (hpending.imp_right ?_) (hread 1 (by simp) _ rfl)
    · refine ih hstep.1 hinputs.2 (hstep.2.imp_right hinputs.1) fun n hn d hd => ?_
      -- Whoever types on is followed by typing, which is what the others ask for.
      exact hread (n + 1) (Nat.succ_le_succ hn) d hd
    · rintro ⟨c', hc, htyping⟩
      cases hc
      exact htyping

/-- In a session that begins with a new sheet and in which typing is finished before
    anything else is done, the saved state is the present one of the timeline,
    undoing brings back the state before it and redoing the one after it, and where
    there is none they are ignored. All states that are visited have to be legible. -/
theorem undo_redo_timeline (name : String) (settings : Settings)
    (hsettings : settings.isReadOnly = false) (commands : List Command)
    (hinputs : InputsFinish commands)
    (hlegible : ∀ n ≤ commands.length,
      ((Sheet.new name settings).runAll (commands.take n)).snapshot.Legible) :
    let new := Sheet.new name settings
    let s := new.runAll commands
    let t := new.timeline { present := new.snapshot } commands
    s.snapshot = t.present ∧
    ((t.past = [] → s.undo = (s, .ignored)) ∧
      ∀ d ∈ t.past.head?, s.undo.2 = .applied ∧ s.undo.1.snapshot = d) ∧
    (t.future = [] → s.redo = (s, .ignored)) ∧
      ∀ d ∈ t.future.head?, s.redo.2 = .applied ∧ s.redo.1.snapshot = d := by
  intro new s t
  have hread : ∀ n ≤ commands.length, ∀ d, (new.runAll (commands.take n)).snapshot = d →
      Snapshot.ofText? d.toText = some d := fun n hn d hd =>
    Snapshot.ofText?_toText (hd ▸ hlegible n hn)
  -- A new sheet is all that its timeline has, and nothing lies before or after it.
  have hnew : Tracks new { present := new.snapshot } := by
    have hlen : Dimensioned new := ⟨id, id⟩
    refine ⟨rfl, rfl, rfl, fun d hd => ?_, ?_, hlen⟩
    · rw [List.mem_singleton.1 hd]
      exact restorable_snapshot hlen (hread 0 (Nat.zero_le _) _ rfl)
    · exact congrArg not hsettings
  obtain ⟨htracks, hpending⟩ := tracks_runAll hnew hinputs (.inl rfl) hread
  refine ⟨htracks.snapshot_eq hpending, ⟨htracks.undo_ignored, fun d hd => ?_⟩,
    htracks.redo_ignored, fun d hd => ?_⟩
  · obtain ⟨past, hpast⟩ := List.head?_eq_some_iff.1 hd
    -- What is brought back is what was the present state then.
    obtain ⟨happlied, hback, hnone⟩ := htracks.undo_applied hpending hpast
    exact ⟨happlied, hback.snapshot_eq hnone⟩
  · obtain ⟨future, hfuture⟩ := List.head?_eq_some_iff.1 hd
    obtain ⟨happlied, hforth, hnone⟩ := htracks.redo_applied hpending hfuture
    exact ⟨happlied, hforth.snapshot_eq hnone⟩

/-- A text is typed in two goes, and a merge is made and undone. Undoing once more takes
    back all that was typed. -/
theorem undo_redo_timeline_typed :
    let s := (Sheet.new "" {}).runAll [.typeText ⟨0, 0⟩ "1" .input,
      .typeText ⟨0, 0⟩ "12" .finished, .select (.between ⟨0, 0⟩ ⟨1, 1⟩), .merge, .undo]
    s.undo.2 = .applied ∧ s.undo.1.snapshot = (Sheet.new "" {}).snapshot := by
  intro s
  have h := undo_redo_timeline "" {} rfl [.typeText ⟨0, 0⟩ "1" .input,
    .typeText ⟨0, 0⟩ "12" .finished, .select (.between ⟨0, 0⟩ ⟨1, 1⟩), .merge, .undo]
    (by decide) (by decide +kernel)
  exact h.2.1.2 _ (by decide)

/-- A sheet that is frozen at the last row of the grid is not legible, because the last row
    has no number. Freezing can be undone then, but not redone. -/
theorem undo_redo_timeline_last_row :
    let frozen : Command := .setFreeze ⟨Address.gridLimit - 1, 0⟩
    let new := Sheet.new "" {}
    let s := new.runAll [frozen, .undo]
    let t := new.timeline { present := new.snapshot } [frozen, .undo]
    (InputsFinish [frozen, .undo] ∧ ¬(new.run frozen).1.snapshot.Legible) ∧
      (new.run frozen).2 = .applied ∧ t.future.head? = some (new.run frozen).1.snapshot ∧
        s.redo.2 = .ignored ∧ s.redo.1.snapshot ≠ (new.run frozen).1.snapshot := by
  intro frozen new s t
  exact ⟨⟨by decide, by decide⟩, by decide, by decide, by decide +kernel,
    by decide +kernel⟩

end Sheet

end Worksheet
