import Worksheet.Proofs.Sheet.Stepping
import Worksheet.Proofs.Snapshot

/-!
# Merges Through a Session

When the merges of a sheet stay apart, whatever is done to it.

Two things bring merges into a sheet that were not made there: going back to a
state in the history, and pasting a copy. The history is harmless. It holds texts
of states of the session, and what is read back has their merges and none but
their marks. A copy is not. It makes merges out of marks, so merges that were
taken out of the registry come back if their marks were left behind, and then
they may overlap others. That is all that can go wrong: the merges of a session
stay apart exactly as long as those that arrive with a copy do. And these are
apart as long as no mark is left behind.

A mark is left behind by unmerging, clearing, or pasting over a merge whose first
cell is locked. All this is about sessions in the first half of the grid, where the
numbers of lines and displacements are read as they are.

## Main definitions

* `Sheet.after`: A session, command by command.
* `Sheet.StaysNear`: Sessions in the first half of the grid.
* `Sheet.Recalls`: A property of all states that the history holds.
* `Sheet.LeavesNoMark`: No mark is left behind.

## Theorems

* `Sheet.Step.recalls`: The history holds nothing but states of the session.
* `Sheet.settled_after`: As long as no mark is left behind, every mark is registered.
* `Sheet.apart_after`: When merges stay apart.
* `Sheet.registered_after`: When the registry says just what the marks say.
-/

namespace Worksheet

namespace Sheet

/-! ## The history -/

/-- Does a property hold of every state that the history holds, and of the state
    that was put aside? -/
structure Recalls (P : Merges → Rows → Prop) (s : Sheet) : Prop where
  history : ∀ text ∈ s.history.past ++ s.history.future, ∀ d, Snapshot.ofText? text = some d →
    P d.merges d.rows
  pending : ∀ d ∈ s.pending, P d.merges d.rows

section

variable {P : Merges → Rows → Prop} {s s' : Sheet} {new lost : List Range}

theorem Recalls.imp {Q : Merges → Rows → Prop} (hs : Recalls P s) (h : ∀ {m s}, P m s → Q m s) :
    Recalls Q s :=
  ⟨fun text htext d hd => h (hs.history text htext d hd), fun d hd => h (hs.pending d hd)⟩

/-- What is left of a state that is written and read back: a property of its marks, and
    of its merges if their cells can be counted. -/
structure Remains (P : Merges → Rows → Prop) : Prop where
  marks : ∀ {m s s'}, Rows.SameMarks s s' → P m s → P m s'
  near : ∀ {m s}, P m s → m.Below Address.reach

theorem remains_and {Q : Merges → Rows → Prop}
    (h : ∀ {m s s'}, Rows.SameMarks s s' → Q m s → Q m s') :
    Remains fun m s => m.Below Address.reach ∧ Q m s :=
  ⟨fun hmarks hm => ⟨hm.1, h hmarks hm.2⟩, And.left⟩

theorem recalls_ofText? (hP : Remains P) {d d' : Snapshot} (hd : P d.merges d.rows)
    (hread : Snapshot.ofText? d.toText = some d') : P d'.merges d'.rows := by
  rw [(Snapshot.reread_of_ofText? hread).merges fun r hr => (hP.near hd r hr).count]
  exact hP.marks (Snapshot.sameMarks_of_ofText? hread) hd

/-- Recording a state puts it in front of the past, and drops the future. -/
theorem Recalls.record (hP : Remains P) (hs : Recalls P s) {d : Snapshot} (hd : P d.merges d.rows) :
    ∀ text ∈ (s.history.record d.toText).past ++ (s.history.record d.toText).future, ∀ d',
      Snapshot.ofText? text = some d' → P d'.merges d'.rows := by
  intro text htext d' hread
  simp only [History.record, List.append_nil, List.mem_cons] at htext
  rcases htext with rfl | htext
  · exact recalls_ofText? (P := P) hP hd hread
  · exact hs.history text (List.mem_append_left _ htext) d' hread

/-- The history holds nothing but states of the session, so what holds of these
    holds of all that can be restored. Reading a state back gives its marks, and not
    all that is stored, so the property must be about marks. -/
theorem Step.recalls (h : Step s new lost s') (hP : Remains P) (hs : Recalls P s)
    (hpresent : P s.merges s.rows) : Recalls P s' := by
  -- What is put aside is an earlier state, or else the present one.
  have hput : P (s.pending.getD s.snapshot).merges (s.pending.getD s.snapshot).rows := by
    cases hpending : s.pending with
    | none => exact hpresent
    | some d => exact hs.pending d hpending
  cases h with
  | idle h =>
    refine ⟨?_, ?_⟩
    · rw [h.history]
      exact hs.history
    · rw [h.pending]
      exact hs.pending
  | commit hchange h =>
    obtain ⟨hhistory, hpending⟩ := hchange.session
    refine ⟨?_, ?_⟩
    · rw [h.history, hhistory]
      exact Recalls.record (P := P) (d := s.snapshot) hP hs hpresent
    · rw [h.pending, hpending]
      exact nofun
  | input h =>
    refine ⟨?_, ?_⟩
    · rw [h.history]
      exact hs.history
    · rw [h.pending]
      intro d hd
      cases hd
      exact hput
  | finish h =>
    refine ⟨?_, ?_⟩
    · rw [h.history]
      exact Recalls.record (P := P) hP hs hput
    · rw [h.pending]
      exact nofun
  | restore htext hstate merges marks history pending =>
    refine ⟨fun x hx d hd => ?_, ?_⟩
    · rcases history x hx with rfl | hx
      · exact recalls_ofText? (P := P) (d := s.snapshot) hP hpresent hd
      · exact hs.history x hx d hd
    · rw [pending]
      exact nofun

/-- After a step merges are apart if and only if those that arrive are. -/
theorem Step.apart_iff (h : Step s new lost s') (hs : s.merges.Apart)
    (hrecalls : Recalls (fun m _ => m.Apart) s) :
    s'.merges.Apart ↔ (new.foldl Merges.add .empty).Apart := by
  cases h with
  | idle h => exact Change.apart_iff_of_nil (h.merges ▸ hs)
  | commit hchange h =>
    rw [h.merges]
    exact hchange.apart_iff hs
  | input h => exact Change.apart_iff_of_nil (h.merges ▸ hs)
  | finish h => exact Change.apart_iff_of_nil (h.merges ▸ hs)
  | restore htext hstate merges marks history pending =>
    exact Change.apart_iff_of_nil (merges ▸ hrecalls.history _ htext _ hstate)

/-- After a step every mark is registered, but for those of locked cells. -/
theorem Step.settled (h : Step s new lost s') (hs : Agrees s.merges s.rows)
    (hrecalls : Recalls Agrees s) : Settled s'.merges s'.rows := by
  cases h with
  | idle h =>
    rw [h.merges]
    exact (hs.of_sameMarks h.marks).settled
  | commit hchange h =>
    rw [h.merges, h.rows]
    exact hchange.settled hs
  | input h =>
    rw [h.merges]
    exact (hs.of_sameMarks h.marks).settled
  | finish h =>
    rw [h.merges]
    exact (hs.of_sameMarks h.marks).settled
  | restore htext hstate merges marks history pending =>
    rw [merges]
    exact ((hrecalls.history _ htext _ hstate).of_sameMarks marks).settled

/-- A step with losses leaves merges registered that have no mark. -/
theorem Step.mark_of_lost (h : Step s new lost s') {m : Range} (hm : m ∈ lost) :
    m ∈ s'.merges.ranges ∧ s'.rows.mark m.first = none := by
  cases h with
  | commit hchange h =>
    rw [h.merges, h.rows]
    exact hchange.mark_of_lost hm
  | idle | input | finish | restore => cases hm

/-- After a step without losses every merge is anchored. -/
theorem Step.anchored (h : Step s new [] s') (hs : Mirrors s.merges s.rows)
    (hrecalls : Recalls Mirrors s) : s'.rows.Anchors s'.merges := by
  cases h with
  | idle h =>
    rw [h.merges]
    exact hs.anchored.of_sameMarks h.marks
  | commit hchange h =>
    rw [h.merges, h.rows]
    exact hchange.anchored hs
  | input h =>
    rw [h.merges]
    exact hs.anchored.of_sameMarks h.marks
  | finish h =>
    rw [h.merges]
    exact hs.anchored.of_sameMarks h.marks
  | restore htext hstate merges marks history pending =>
    rw [merges]
    exact (hrecalls.history _ htext _ hstate).anchored.of_sameMarks marks

end

/-! ## Sessions -/

/-- Does no locked cell keep a mark, unless its merge is registered? -/
def LeavesNoMark (s : Sheet) : Prop :=
  ∀ e ∈ s.rows.cells, e.2.editable = false → ∀ span ∈ e.2.merge,
    Range.spanning e.1 span.rows span.cols ∈ s.merges.ranges

instance (s : Sheet) : Decidable s.LeavesNoMark :=
  inferInstanceAs (Decidable (∀ e ∈ s.rows.cells, _ → ∀ span ∈ e.2.merge, _ ∈ s.merges.ranges))

theorem agrees_of_settled {s : Sheet} (h : Settled s.merges s.rows) (hs : s.LeavesNoMark) :
    Agrees s.merges s.rows := by
  refine ⟨h.apart, fun c span hmark => ?_⟩
  rcases h.marks c span hmark with hregistered | ⟨cell, hcell, hlocked⟩
  · exact hregistered
  · obtain ⟨cell', hcell', hmerge⟩ := Rows.mark_eq_some_iff.1 hmark
    obtain rfl : cell = cell' := Option.some.inj (hcell.symm.trans hcell')
    exact hs (c, cell) (Rows.mem_cells_iff.2 hcell) hlocked span hmerge

/-- The sheet after the first commands of a session. -/
def after (name : String) (settings : Settings) (commands : List Command) (n : Nat) : Sheet :=
  (Sheet.new name settings).runAll (commands.take n)

/-- Does a session stay in the first half of the grid? -/
def StaysNear (name : String) (settings : Settings) (commands : List Command) : Prop :=
  ∀ n ≤ commands.length, (after name settings commands n).Below Address.reach

instance (name : String) (settings : Settings) (commands : List Command) :
    Decidable (StaysNear name settings commands) :=
  inferInstanceAs (Decidable (∀ n ≤ commands.length, _))

section

variable {name : String} {settings : Settings} {commands : List Command} {n : Nat}

theorem step_after (hnear : StaysNear name settings commands) (h : n < commands.length) :
    Step (after name settings commands n) ((after name settings commands n).arrivals commands[n])
      ((after name settings commands n).losses commands[n])
      (after name settings commands (n + 1)) := by
  have hrun : after name settings commands (n + 1) =
      ((after name settings commands n).run commands[n]).1 := by
    rw [after, List.take_succ_eq_append_getElem h, runAll_append]
    rfl
  have hafter := hnear (n + 1) h
  rw [hrun] at hafter ⊢
  exact step_run (hnear n (Nat.le_of_lt h)) _ hafter

theorem recalls_new (P : Merges → Rows → Prop) : Recalls P (Sheet.new name settings) :=
  ⟨by simp [Sheet.new], nofun⟩

/-- What holds of all states before the present one holds of all that the history holds. -/
theorem recalls_after (hnear : StaysNear name settings commands) (hn : n ≤ commands.length)
    {P : Merges → Rows → Prop} (hP : ∀ {m s s'}, Rows.SameMarks s s' → P m s → P m s')
    (h : ∀ k < n, P (after name settings commands k).merges (after name settings commands k).rows) :
    Recalls P (after name settings commands n) := by
  suffices hboth : Recalls (fun m s => m.Below Address.reach ∧ P m s)
      (after name settings commands n) from hboth.imp And.right
  induction n with
  | zero => exact recalls_new _
  | succ n ih =>
    have hle := Nat.le_of_succ_le hn
    have hrecalls := ih hle fun k hk => h k (Nat.lt_succ_of_lt hk)
    exact (step_after hnear hn).recalls (remains_and hP) hrecalls
      ⟨(hnear n hle).merges, h n (Nat.lt_succ_self n)⟩

/-- As long as no mark is left behind, every mark is registered. -/
theorem settled_after (hnear : StaysNear name settings commands) (hn : n ≤ commands.length)
    (h : ∀ k < n, (after name settings commands k).LeavesNoMark) :
    Settled (after name settings commands n).merges (after name settings commands n).rows := by
  -- The history holds earlier states, so all of these have to agree.
  induction n using Nat.strong_induction_on with
  | _ n ih =>
    cases n with
    | zero =>
      refine ⟨.empty, fun c span hmark => ?_⟩
      cases hmark
    | succ n =>
      have hagrees : ∀ k < n + 1, Agrees (after name settings commands k).merges
          (after name settings commands k).rows := fun k hk =>
        agrees_of_settled (ih k hk (Nat.le_of_lt (Nat.lt_of_lt_of_le hk hn)) fun j hj =>
          h j (Nat.lt_trans hj hk)) (h k hk)
      have hrecalls := recalls_after hnear (Nat.le_of_succ_le hn)
        (fun hmarks hm => hm.of_sameMarks hmarks) fun k hk => hagrees k (Nat.lt_succ_of_lt hk)
      exact (step_after hnear hn).settled (hagrees n (Nat.lt_succ_self n)) hrecalls

/-- As long as no mark is left behind and no merge is left without one, the registry
    says just what the marks say. -/
theorem mirrors_after (hnear : StaysNear name settings commands) (hn : n ≤ commands.length)
    (hmarks : ∀ k ≤ n, (after name settings commands k).LeavesNoMark)
    (hlosses : ∀ k, (h : k < commands.length) → k < n →
      (after name settings commands k).losses commands[k] = []) :
    Mirrors (after name settings commands n).merges (after name settings commands n).rows := by
  induction n using Nat.strong_induction_on with
  | _ n ih =>
    cases n with
    | zero =>
      refine ⟨⟨.empty, fun c span hmark => ?_⟩, fun r hr => ?_⟩
      · cases hmark
      · cases hr
    | succ n =>
      have hmirrors : ∀ k < n + 1, Mirrors (after name settings commands k).merges
          (after name settings commands k).rows := fun k hk =>
        ih k hk (Nat.le_of_lt (Nat.lt_of_lt_of_le hk hn))
          (fun j hj => hmarks j (Nat.le_trans hj (Nat.le_of_lt hk)))
          fun j hj hlt => hlosses j hj (Nat.lt_trans hlt hk)
      have hrecalls := recalls_after hnear (Nat.le_of_succ_le hn)
        (fun hsame hm => hm.of_sameMarks hsame) fun k hk => hmirrors k (Nat.lt_succ_of_lt hk)
      have hstep : Step (after name settings commands n) _ _
          (after name settings commands (n + 1)) := step_after hnear hn
      rw [hlosses n hn (Nat.lt_succ_self n)] at hstep
      have hsettled := settled_after hnear hn fun k hk => hmarks k (Nat.le_of_lt hk)
      have hagrees := agrees_of_settled hsettled (hmarks (n + 1) (Nat.le_refl _))
      exact ⟨hagrees, hstep.anchored (hmirrors n (Nat.lt_succ_self n)) hrecalls⟩

end

/-- In a session that stays in the first half of the grid, the merges have more than one
    cell each and no cell in common, after every command, if and only if the same holds of
    the merges that each pasted copy makes out of marks. It does as long as no locked cell
    keeps the mark of a merge that is gone. -/
theorem apart_after (name : String) (settings : Settings) (commands : List Command)
    (hnear : StaysNear name settings commands) :
    ((∀ n ≤ commands.length, (after name settings commands n).merges.Apart) ↔
      ∀ n, (h : n < commands.length) →
        (((after name settings commands n).arrivals commands[n]).foldl Merges.add .empty).Apart) ∧
    ((∀ n < commands.length, (after name settings commands n).LeavesNoMark) →
      ∀ n ≤ commands.length, (after name settings commands n).merges.Apart) := by
  refine ⟨⟨fun h n hn => ?_, fun h n hn => ?_⟩, fun h n hn => ?_⟩
  · have hrecalls := recalls_after hnear (Nat.le_of_lt hn) (P := fun m _ => m.Apart)
      (fun _ hm => hm) fun k hk => h k (Nat.le_of_lt (Nat.lt_trans hk hn))
    exact ((step_after hnear hn).apart_iff (h n (Nat.le_of_lt hn)) hrecalls).1 (h (n + 1) hn)
  · -- The history holds earlier states, so all of these have to be apart.
    induction n using Nat.strong_induction_on with
    | _ n ih =>
      cases n with
      | zero => exact .empty
      | succ n =>
        have hbefore : ∀ k < n + 1, (after name settings commands k).merges.Apart := fun k hk =>
          ih k hk (Nat.le_of_lt (Nat.lt_of_lt_of_le hk hn))
        have hrecalls := recalls_after hnear (Nat.le_of_succ_le hn) (P := fun m _ => m.Apart)
          (fun _ hm => hm) fun k hk => hbefore k (Nat.lt_succ_of_lt hk)
        exact ((step_after hnear hn).apart_iff (hbefore n (Nat.lt_succ_self n)) hrecalls).2 (h n hn)
  · exact (settled_after hnear hn fun k hk => h k (Nat.lt_of_lt_of_le hk hn)).apart

/-- Merging, copying and editing lines leaves no mark behind. -/
theorem apart_after_copying : let commands := [.select (.between ⟨0, 0⟩ ⟨1, 1⟩), .merge, .copy,
      .selectCell ⟨4, 4⟩, .paste .all, .insertAt .row 1 1, .selectCell ⟨6, 5⟩, .unmerge]
    (StaysNear "" {} commands ∧ ∀ n < commands.length, (after "" {} commands n).LeavesNoMark) ∧
      ∀ n ≤ commands.length, (after "" {} commands n).merges.Apart := by
  intro commands
  have hnear : StaysNear "" {} commands := by decide
  have hnone : ∀ n < commands.length, (after "" {} commands n).LeavesNoMark := by decide
  exact ⟨⟨hnear, hnone⟩, (apart_after "" {} commands hnear).2 hnone⟩

/-- The first cell of a merge is locked, the merge is undone, another one is made across
    it, and a copy of both brings the first one back. -/
theorem not_apart_after_locking : ¬(after "" {}
    [.select (.between ⟨0, 0⟩ ⟨1, 1⟩), .merge,
      .select (.single ⟨0, 0⟩), .editSelected (.editable false),
      .select (.between ⟨0, 0⟩ ⟨1, 1⟩), .unmerge, .select (.between ⟨1, 1⟩ ⟨2, 2⟩), .merge,
      .select (.between ⟨0, 0⟩ ⟨2, 2⟩), .copy, .select (.single ⟨4, 4⟩), .paste .all]
    12).merges.Apart := by
  decide

/-- In every state of a session that stays in the first half of the grid, a merge is
    registered just where the first of its cells carries its span, if and only if no locked
    cell keeps the mark of a merge that is gone, and no command takes the mark off a merge
    that stays registered. -/
theorem registered_after (name : String) (settings : Settings) (commands : List Command)
    (hnear : StaysNear name settings commands) :
    (∀ n ≤ commands.length, ∀ r, r ∈ (after name settings commands n).merges.ranges ↔
      (after name settings commands n).rows.mark r.first = some r.span) ↔
    (∀ n ≤ commands.length, (after name settings commands n).LeavesNoMark) ∧
      ∀ n, (h : n < commands.length) →
        (after name settings commands n).losses commands[n] = [] := by
  constructor
  · intro h
    refine ⟨fun n hn e he _ span hspan => ?_, fun n hn => ?_⟩
    · refine (h n hn _).2 ?_
      rw [Range.first_spanning, Range.span_spanning]
      exact Rows.mark_eq_some_iff.2 ⟨e.2, Rows.mem_cells_iff.1 he, hspan⟩
    · -- A merge that was lost would be registered, and its first cell have no mark.
      refine List.eq_nil_iff_forall_not_mem.2 fun m hm => ?_
      obtain ⟨hregistered, hmark⟩ := (step_after hnear hn).mark_of_lost hm
      rw [(h (n + 1) hn m).1 hregistered] at hmark
      cases hmark
  · rintro ⟨hmarks, hlosses⟩ n hn r
    have hmirrors := mirrors_after hnear hn (fun k hk => hmarks k (Nat.le_trans hk hn))
      fun k hk _ => hlosses k hk
    refine ⟨hmirrors.anchored r, fun hmark => ?_⟩
    rw [← Range.spanning_span r]
    exact hmirrors.marks r.first r.span hmark

/-- A merge is made, cut and pasted, and is registered where its first cell went. -/
theorem registered_after_cutting : let commands := [.select (.between ⟨0, 0⟩ ⟨1, 1⟩), .merge,
      .cut, .selectCell ⟨4, 4⟩, .paste .all, .insertAt .row 5 1]
    (StaysNear "" {} commands ∧
      (∀ n ≤ commands.length, (after "" {} commands n).LeavesNoMark) ∧
      ∀ n, (h : n < commands.length) → (after "" {} commands n).losses commands[n] = []) ∧
    (after "" {} commands commands.length).rows.mark ⟨4, 4⟩ = some ⟨2, 1⟩ := by
  intro commands
  have hnear : StaysNear "" {} commands := by decide
  have hmarks : ∀ n ≤ commands.length, (after "" {} commands n).LeavesNoMark := by decide
  have hlosses : ∀ n, (h : n < commands.length) →
      (after "" {} commands n).losses commands[n] = [] := by decide
  have hregistered := (registered_after "" {} commands hnear).2 ⟨hmarks, hlosses⟩
  exact ⟨⟨hnear, hmarks, hlosses⟩, (hregistered commands.length (Nat.le_refl _)
    (.between ⟨4, 4⟩ ⟨6, 5⟩)).1 (by decide)⟩

/-- The marks of a merge are cleared, and the merge is still registered. -/
theorem not_registered_after_clearing_marks : ¬∀ r, r ∈ (after "" {}
      [.select (.between ⟨0, 0⟩ ⟨1, 1⟩), .merge, .clearSelected .merge] 3).merges.ranges ↔
    (after "" {} [.select (.between ⟨0, 0⟩ ⟨1, 1⟩), .merge, .clearSelected .merge] 3).rows.mark
      r.first = some r.span := by
  intro h
  have hmark := (h (.between ⟨0, 0⟩ ⟨1, 1⟩)).1 (by decide)
  exact absurd hmark (by decide)

end Sheet

end Worksheet
