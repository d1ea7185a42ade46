import Worksheet.Proofs.Address.Moving
import Worksheet.Proofs.Address.Replacing

/-!
# References That Are Moved Twice

Moving the references of a formula step by step.

A reference that is moved is written anew, and the second move looks for references
in what the first one wrote. It finds the cell again if its notation has the shape
of a reference and is read as that cell. Both can fail: a column far to the right has
more than three letters, and the last row and the last column have no number that is read.
Such a cell stays where the first move put it, so the second move is lost on it,
unless that was no move at all. For every other cell moving twice is moving by the
sum.

## Main definitions

* `CellRef.Legible`: A cell whose notation is a reference to it.
* `Address.Movable`: Every reference of a formula stays on the grid.

## Theorems

* `CellRef.move?_move?`: Moving a cell twice is moving it by the sum.
* `CellRef.toChars_injective`: No two cells have one notation.
* `Address.isReference_toChars`: Which notations have the shape of a reference.
* `Address.shift_legible`, `Address.shift_illegible`: What the second move does to the
  notation that the first one wrote.
* `Address.shiftReferences_shiftReferences`: When moving the references of a formula
  twice is moving them by the sum.
-/

namespace Worksheet

/-- One displacement after another. -/
instance : Add Displacement := ⟨fun d e => ⟨d.cols + e.cols, d.rows + e.rows⟩⟩

namespace CellRef

open Address

/-- A cell whose notation is a reference to it: it is read back, and its column has at most
    three letters. -/
structure Legible (r : CellRef) : Prop where
  fits : r.Fits
  letters : (columnLetters r.col).length ≤ 3

instance (r : CellRef) : Decidable r.Legible :=
  decidable_of_iff (r.Fits ∧ (columnLetters r.col).length ≤ 3)
    ⟨fun h => ⟨h.1, h.2⟩, fun h => ⟨h.fits, h.letters⟩⟩

/-- Moving a cell twice is moving it by the sum, if it is on the grid in between. -/
theorem move?_move? {r r' : CellRef} {d e : Displacement} (h : r.move? d = some r') :
    r'.move? e = r.move? (d + e) := by
  have hsum : (d + e).rows = d.rows + e.rows ∧ (d + e).cols = d.cols + e.cols := ⟨rfl, rfl⟩
  rw [move?_eq_some_iff] at h
  refine Option.ext fun c => ?_
  rw [move?_eq_some_iff, move?_eq_some_iff]
  omega

/-- A move that leads nowhere is none. -/
theorem move?_eq_self_iff {r r' : CellRef} {d : Displacement} (h : r.move? d = some r') :
    r = r' ↔ d = ⟨0, 0⟩ := by
  rcases r with ⟨row, col⟩
  rcases r' with ⟨row', col'⟩
  rcases d with ⟨cols, rows⟩
  rw [move?_eq_some_iff] at h
  simp only [CellRef.mk.injEq, Displacement.mk.injEq] at h ⊢
  omega

/-- No two cells have one notation: the first digit tells where the letters end. -/
theorem toChars_injective : Function.Injective toChars := by
  intro r r' h
  have hdigits (n : Nat) : ∀ c ∈ Nat.toDigits 10 n, Text.isDigit c = true := fun c hc =>
    Text.isDigit_of_mem_toDigits hc
  have hcut (r : CellRef) : r.toChars.takeWhile (fun c => !Text.isDigit c) = columnLetters r.col ∧
      r.toChars.dropWhile (fun c => !Text.isDigit c) = Nat.toDigits 10 (next r.row) :=
    takeWhile_letters (fun c hc => (mem_numeral hc).1) (hdigits (next r.row))
  have hcol : columnLetters r.col = columnLetters r'.col := by
    rw [← (hcut r).1, ← (hcut r').1]
    exact congrArg _ h
  have hrow : Nat.toDigits 10 (next r.row) = Nat.toDigits 10 (next r'.row) := by
    rw [← (hcut r).2, ← (hcut r').2]
    exact congrArg _ h
  have hcol' := congrArg numeralValue hcol
  have hrow' := congrArg (Nat.ofDigitChars 10 · 0) hrow
  simp only [columnLetters, numeralValue_numeral] at hcol'
  simp only [Nat.ofDigitChars_ten_toDigits] at hrow'
  rcases r with ⟨row, col⟩
  rcases r' with ⟨row', col'⟩
  rw [CellRef.mk.injEq]
  exact ⟨next_injective hrow', next_injective hcol'⟩

end CellRef

namespace Address

/-! ## Notations in a formula -/

/-- The notation of a cell is a word. -/
theorem isWord_of_mem_toChars {r : CellRef} {c : Char} (h : c ∈ r.toChars) :
    Text.isWord c = true := by
  rcases List.mem_append.1 h with hletter | hdigit
  · exact Text.isWord_of_isLetter (mem_numeral hletter).1
  · have hdecimal := Text.isDigit_of_mem_toDigits hdigit
    have hlt : c.toNat < 128 := by
      have := (Text.isDigit_iff c).1 hdecimal
      omega
    rw [Text.isWord, if_pos hlt, hdecimal, Bool.or_true, Bool.true_or]

/-- The notation of a cell has the shape of a reference just when its column has one to
    three letters. -/
theorem isReference_toChars (r : CellRef) : isReference r.toChars = true ↔
    0 < (columnLetters r.col).length ∧ (columnLetters r.col).length ≤ 3 := by
  have hletters : ∀ c ∈ columnLetters r.col, Text.isLetter c = true := fun c hc =>
    (mem_numeral hc).1
  have hdigits : ∀ c ∈ Nat.toDigits 10 (next r.row), Text.isDigit c = true := fun c hc =>
    Text.isDigit_of_mem_toDigits hc
  -- The scan for letters stops at the first digit.
  have hstop : ∀ c ∈ (Nat.toDigits 10 (next r.row)).head?, Text.isLetter c = false := fun c hc =>
    Text.isLetter_of_isDigit (hdigits c (List.mem_of_mem_head? hc))
  have htake : (Nat.toDigits 10 (next r.row)).takeWhile Text.isLetter = [] ∧
      (Nat.toDigits 10 (next r.row)).dropWhile Text.isLetter = Nat.toDigits 10 (next r.row) := by
    cases hrow : Nat.toDigits 10 (next r.row) with
    | nil => exact ⟨rfl, rfl⟩
    | cons d ds =>
      rw [hrow] at hstop
      have hd : ¬Text.isLetter d = true := by simp [hstop d rfl]
      exact ⟨List.takeWhile_cons_of_neg hd, List.dropWhile_cons_of_neg hd⟩
  have hdecimal : ∀ c ∈ Nat.toDigits 10 (next r.row), Text.isDecimal c = true := fun c hc =>
    Text.isDecimal_of_isDigit (hdigits c hc)
  unfold isReference CellRef.toChars
  rw [List.takeWhile_append_of_pos hletters, List.dropWhile_append_of_pos hletters, htake.1,
    htake.2]
  simp only [List.append_nil, Bool.and_eq_true, decide_eq_true_eq, bne_iff_ne, ne_eq,
    List.all_eq_true]
  exact ⟨fun h => h.1.1, fun h => ⟨⟨h, Nat.toDigits_ne_nil⟩, hdecimal⟩⟩

/-- The notation of a cell is a run of word characters. -/
theorem isRun_toChars (r : CellRef) : IsRun r.toChars :=
  ⟨List.append_ne_nil_of_right_ne_nil _ Nat.toDigits_ne_nil,
    fun _ => isWord_of_mem_toChars⟩

variable {w formula : List Char} {r r' : CellRef} {d e : Displacement}

/-- What is no reference is not rewritten. -/
theorem shift_of_none (h : CellRef.ofChars? w = none) (d : Displacement)
    (moves : CellRef → Bool) : shift d moves w = w := by
  rw [shift, h]

/-- A reference that is moved becomes the notation of the cell it was moved to. -/
theorem shift_of_move? (hw : CellRef.ofChars? w = some r) (h : r.move? d = some r') :
    shift d (fun _ => true) w = r'.toChars := by
  rw [shift, hw]
  simp only [if_true, h]

/-! ## A second move -/

/-- The notation of a legible cell is moved on. -/
theorem shift_legible (hr : r.Legible) (h : r.move? e = some r') :
    (if isReference r.toChars then shift e (fun _ => true) r.toChars else r.toChars) =
      r'.toChars := by
  rw [if_pos ((isReference_toChars r).2
    ⟨List.length_pos_iff.2 (columnLetters_ne_nil hr.fits.2), hr.letters⟩)]
  exact shift_of_move? (CellRef.ofChars?_toChars hr.fits.1 hr.fits.2) h

/-- The notation of any other cell stays: it is not found as a reference, or not read as one. -/
theorem shift_illegible (hr : ¬r.Legible) :
    (if isReference r.toChars then shift e (fun _ => true) r.toChars else r.toChars) =
      r.toChars := by
  by_cases hreference : isReference r.toChars = true
  · rw [if_pos hreference]
    refine shift_of_none ?_ e _
    cases hread : CellRef.ofChars? r.toChars with
    | none => rfl
    | some c =>
      obtain rfl := CellRef.eq_of_ofChars?_toChars hread
      exact absurd ⟨CellRef.fits_of_ofChars? hread, ((isReference_toChars _).1 hreference).2⟩ hr
  · rw [if_neg hreference]

/-- Every reference of a formula stays on the grid when it is moved. -/
def Movable (d : Displacement) (formula : List Char) : Prop :=
  ∀ w ∈ references formula, ∀ r ∈ CellRef.ofChars? w, (r.move? d).isSome = true

instance (d : Displacement) (formula : List Char) : Decidable (Movable d formula) :=
  inferInstanceAs (Decidable (∀ _ ∈ _, ∀ _ ∈ _, _))

/-- What a word becomes is a word, whether it was moved or not. -/
theorem isRun_shift (hw : IsRun w) (h : ∀ r ∈ CellRef.ofChars? w, (r.move? d).isSome = true) :
    IsRun (shift d (fun _ => true) w) := by
  cases hread : CellRef.ofChars? w with
  | none => rwa [shift_of_none hread]
  | some r =>
    rcases Option.isSome_iff_exists.1 (h r hread) with ⟨r', hr'⟩
    rw [shift_of_move? hread hr']
    exact isRun_toChars r'

/-- What two moves make of a word, when it stays on the grid after each of them. -/
theorem shift_shift (hd : ∀ r ∈ CellRef.ofChars? w, (r.move? d).isSome = true)
    (hde : ∀ r ∈ CellRef.ofChars? w, (r.move? (d + e)).isSome = true) :
    let moved := shift d (fun _ => true) w
    (IsRun w → IsRun (if isReference moved then shift e (fun _ => true) moved else moved)) ∧
    ((if isReference moved then shift e (fun _ => true) moved else moved) =
        shift (d + e) (fun _ => true) w ↔
      ∀ r ∈ CellRef.ofChars? w, e = ⟨0, 0⟩ ∨ ∀ r' ∈ r.move? d, r'.Legible) := by
  intro moved
  cases hread : CellRef.ofChars? w with
  | none =>
    -- A word that spells no cell stays, however often it is moved.
    have hstays (d : Displacement) := shift_of_none hread d (fun _ => true)
    simp only [moved, hstays, ite_self]
    exact ⟨id, iff_of_true trivial nofun⟩
  | some r =>
    rcases Option.isSome_iff_exists.1 (hd r hread) with ⟨r₁, h₁⟩
    rcases Option.isSome_iff_exists.1 (hde r hread) with ⟨r₂, h₂⟩
    have hnext : r₁.move? e = some r₂ := (CellRef.move?_move? h₁).trans h₂
    simp only [moved, shift_of_move? hread h₁, shift_of_move? hread h₂, Option.mem_def,
      Option.some.injEq, forall_eq', h₁]
    by_cases hlegible : r₁.Legible
    · rw [shift_legible hlegible hnext]
      exact ⟨fun _ => isRun_toChars r₂, iff_of_true rfl (.inr hlegible)⟩
    · rw [shift_illegible hlegible, CellRef.toChars_injective.eq_iff,
        CellRef.move?_eq_self_iff hnext]
      exact ⟨fun _ => isRun_toChars r₁, (or_iff_left hlegible).symm⟩

/-- Moving the references of a formula twice is moving them by the sum, if and only if the
    second move is none or every reference can still be read after the first one. -/
theorem shiftReferences_shiftReferences (hd : Movable d formula) (hde : Movable (d + e) formula) :
    shiftReferences e (fun _ => true) (shiftReferences d (fun _ => true) formula) =
        shiftReferences (d + e) (fun _ => true) formula ↔
      e = ⟨0, 0⟩ ∨
        ∀ w ∈ references formula, ∀ r ∈ CellRef.ofChars? w, ∀ r' ∈ r.move? d, r'.Legible := by
  have hword (w) (hw : w ∈ references formula) := shift_shift (hd w hw) (hde w hw)
  unfold shiftReferences
  rw [mapReferences_mapReferences fun w hw hrun => isRun_shift hrun (hd w hw),
    mapReferences_eq_iff (fun w hw => (hword w hw).1)
      fun w hw hrun => isRun_shift hrun (hde w hw),
    forall₂_congr fun w hw => (hword w hw).2]
  -- Whether the second move is none is the same for every reference.
  by_cases he : e = ⟨0, 0⟩
  · exact iff_of_true (fun _ _ _ _ => .inl he) (.inl he)
  · simp only [he, false_or]

/-- Through a quoted text, a function name, lower case and zeros in front, up to the last
    column of three letters and back. -/
theorem shiftReferences_twice :
    let formula := "=sum(xfc08,\"A1\")&LOG10(B2)+A1:c3".toList
    let d : Displacement := ⟨1895, 2⟩
    let e : Displacement := ⟨-1895, 5⟩
    Movable d formula ∧ Movable (d + e) formula ∧
      shiftReferences d (fun _ => true) formula =
        "=sum(ZZZ10,\"A1\")&LOG10(BTY4)+BTX3:BTZ5".toList ∧
      shiftReferences e (fun _ => true) (shiftReferences d (fun _ => true) formula) =
        shiftReferences (d + e) (fun _ => true) formula := by
  intro formula d e
  have hd : Movable d formula := by decide
  have hde : Movable (d + e) formula := by decide
  exact ⟨hd, hde, by decide +kernel,
    (shiftReferences_shiftReferences hd hde).2 (.inr (by decide +kernel))⟩

/-- One column past `ZZZ` the notation has four letters, and is no reference that could be
    moved back. -/
theorem shiftReferences_past_letters :
    let formula := "=ZZZ1".toList
    Movable ⟨1, 0⟩ formula ∧ Movable (⟨1, 0⟩ + ⟨-1, 0⟩) formula ∧
      shiftReferences ⟨-1, 0⟩ (fun _ => true) (shiftReferences ⟨1, 0⟩ (fun _ => true) formula) ≠
        shiftReferences (⟨1, 0⟩ + ⟨-1, 0⟩) (fun _ => true) formula := by
  decide +kernel

end Address

end Worksheet
