import Mathlib.Algebra.Group.Int.Defs
import Worksheet.Json.Record
import Worksheet.Json.Reader
import Worksheet.Json.Writer
import Worksheet.Proofs.Number.Shortest
import Worksheet.Proofs.Text.Letter

/-!
# Reading Literals Back

That the texts and numbers of a document are read as what was written.

A text is written character by character, and each written character is read
as one part: itself, or the code unit that spells it. Control characters are
no surrogates, so joining the parts gives the text again, and no index has a
control character in it, so the name of a field is read as it is.

A number is first brought into its parts, a `Numeral`. The parts say where
each scan of the reader stops, so a well-formed numeral is read in one piece
whatever follows, provided that this does not go on with the number. Integers
and doubles are both written as well-formed numerals, and an integer in the
64-bit range is read as itself.

## Main definitions

* `unitOf`: What a written character is read as.
* `Numeral`: A number literal in its parts.

## Theorems

* `readText?_quoted`, `readName?_quoted`: Texts and names read back.
* `readNumber?_chars`: A well-formed numeral is read in one piece.
* `Numeral.value_ofInt`, `index?_value_ofInt`: Integers and indices read back.
* `floatChars_eq`: Doubles are written as numerals.
-/

namespace Worksheet

namespace Json

/-- The part of a text literal that a written character is read as. -/
def unitOf (c : Char) : TextUnit :=
  if c.toNat < 32 ∧ c ∉ ['\x08', '\t', '\n', '\x0c', '\r'] then .code c.toNat else .char c

theorem hexValue?_hexDigit {n : Nat} (h : n < 16) : hexValue? (hexDigit n) = some n := by
  revert n
  decide

theorem readUnits?_escape (c : Char) (rest : List Char) :
    readUnits? (escape c ++ rest) =
      (readUnits? rest).map fun p => (unitOf c :: p.1, p.2) := by
  -- A character is written short, by its code, or as it is.
  by_cases hshort : c ∈ ['"', '\\', '\x08', '\t', '\n', '\x0c', '\r']
  · simp only [List.mem_cons, List.not_mem_nil, or_false] at hshort
    rcases hshort with rfl | rfl | rfl | rfl | rfl | rfl | rfl <;>
      simp [escape, readUnits?, escaped?, unitOf]
  · simp only [List.mem_cons, List.not_mem_nil, or_false, not_or] at hshort
    obtain ⟨h1, h2, h3, h4, h5, h6, h7⟩ := hshort
    by_cases hc : c.toNat < 32
    · have h0 : hexValue? '0' = some 0 := by decide
      have hhigh := hexValue?_hexDigit (n := c.toNat / 16) (by omega)
      have hlow := hexValue?_hexDigit (n := c.toNat % 16) (by omega)
      have hcode : c.toNat / 16 * 16 + c.toNat % 16 = c.toNat := by omega
      simp [escape, readUnits?, hexCode?, unitOf, *]
    · have hplain : escape c = [c] := by simp [escape, *]
      have hunit : unitOf c = .char c := by simp [unitOf, hc]
      rw [hplain, hunit, List.singleton_append, readUnits?.eq_def]
      split
      · next heq => cases heq
      · next heq => exact absurd (List.cons.inj heq).1 h1
      · next heq => exact absurd (List.cons.inj heq).1 h2
      · next heq => exact absurd (List.cons.inj heq).1 h2
      · next heq =>
        obtain ⟨rfl, rfl⟩ := List.cons.inj heq
        rw [if_neg (not_or.2 ⟨h2, hc⟩)]

theorem joinUnits?_map_unitOf (cs : List Char) : joinUnits? (cs.map unitOf) = some cs := by
  induction cs with
  | nil => rfl
  | cons c cs ih =>
    rw [List.map_cons, unitOf]
    split
    · rename_i h
      have : c.toNat < 0xD800 := by omega
      rw [joinUnits?.eq_def]
      simp [ih, this]
    · simp [joinUnits?, ih]

theorem readUnits?_quoted (cs rest : List Char) :
    readUnits? (cs.flatMap escape ++ '"' :: rest) = some (cs.map unitOf, rest) := by
  induction cs with
  | nil => simp [readUnits?]
  | cons c cs ih =>
    rw [List.flatMap_cons, List.append_assoc, readUnits?_escape, ih]
    rfl
/-- A written text reads back. -/
theorem readText?_quoted (s : String) (rest : List Char) :
    readText? (s.toList.flatMap escape ++ '"' :: rest) = some (some s, rest) := by
  simp [readText?, readUnits?_quoted, joinUnits?_map_unitOf]

theorem readName?_quoted (s : String) (rest : List Char) :
    readName? (s.toList.flatMap escape ++ '"' :: rest) = some (some s, rest) := by
  -- A name of digits that has a code in it would not be read, but only control characters
  -- are written as codes, and they are no digits.
  have hplain :
      ((s.toList.map unitOf).any TextUnit.isCode && s.toList.all Text.isDigit) = false := by
    by_contra h
    simp only [Bool.not_eq_false, Bool.and_eq_true, List.any_eq_true, List.mem_map,
      List.all_eq_true] at h
    obtain ⟨⟨u, ⟨c, hc, rfl⟩, hu⟩, hd⟩ := h
    have := (Text.isDigit_iff c).1 (hd c hc)
    rw [unitOf, if_neg (by omega)] at hu
    cases hu
  simp only [readName?, readUnits?_quoted, joinUnits?_map_unitOf, Option.map_some, hplain,
    Bool.false_eq_true, if_false, String.ofList_toList]

/-- A number literal in its parts. -/
structure Numeral where
  negative : Bool
  whole : List Char
  fraction : Option (List Char)
  /-- The exponent, with its sign first. -/
  power : Option (Bool × List Char)

namespace Numeral

/-- The text of a literal. -/
def chars (n : Numeral) : List Char :=
  (if n.negative then ['-'] else []) ++ n.whole ++
    (n.fraction.elim [] fun ds => '.' :: ds) ++
    (n.power.elim [] fun p => 'e' :: (if p.1 then '-' else '+') :: p.2)

/-- The value of a literal. -/
def value (n : Numeral) : Json :=
  ofNumber n.negative n.whole n.fraction (n.power.any Prod.fst) (n.power.map Prod.snd)

/-- Some digits, and nothing else. -/
def IsDigits (ds : List Char) : Prop :=
  ds ≠ [] ∧ ∀ c ∈ ds, Text.isDigit c = true

/-- The literals that may stand in a document. -/
structure IsFormed (n : Numeral) : Prop where
  whole : IsDigits n.whole
  noZeros : 1 < n.whole.length → n.whole.head? ≠ some '0'
  fraction : ∀ ds ∈ n.fraction, IsDigits ds
  power : ∀ p ∈ n.power, IsDigits p.2

end Numeral

/-- What follows a number does not go on with it. -/
def Ends (rest : List Char) : Prop :=
  ∀ c ∈ rest.head?, Text.isDigit c = false ∧ c ≠ '.' ∧ c ≠ 'e' ∧ c ≠ 'E'

theorem readDigits?_append {ds rest : List Char} (h : Numeral.IsDigits ds)
    (hrest : ∀ c ∈ rest.head?, Text.isDigit c = false) :
    readDigits? (ds ++ rest) = some (ds, rest) := by
  have htail : rest.takeWhile Text.isDigit = [] ∧ rest.dropWhile Text.isDigit = rest := by
    cases rest with
    | nil => simp
    | cons c cs =>
      have hc : Text.isDigit c = false := hrest c (by simp)
      simp [hc]
  rw [readDigits?, List.takeWhile_append_of_pos h.2, List.dropWhile_append_of_pos h.2, htail.1,
    htail.2, List.append_nil]
  cases ds with
  | nil => exact absurd rfl h.1
  | cons d ds => rfl

theorem readPower?_append {power : Option (Bool × List Char)} {rest : List Char}
    (h : ∀ p ∈ power, Numeral.IsDigits p.2) (hrest : Ends rest) :
    readPower? ((power.elim [] fun p => 'e' :: (if p.1 then '-' else '+') :: p.2) ++ rest) =
      some (power.any Prod.fst, power.map Prod.snd, rest) := by
  cases power with
  | none =>
    cases rest with
    | nil => rfl
    | cons c cs =>
      have hc := hrest c (by simp)
      simp [readPower?, hc.2.2.1, hc.2.2.2]
  | some p =>
    obtain ⟨negative, ds⟩ := p
    have hds : readDigits? (ds ++ rest) = some (ds, rest) :=
      readDigits?_append (h (negative, ds) rfl) fun c hc => (hrest c hc).1
    cases negative <;> simp [readPower?, hds]

theorem readFraction?_append {fraction : Option (List Char)} {rest : List Char}
    (h : ∀ ds ∈ fraction, Numeral.IsDigits ds)
    (hrest : ∀ c ∈ rest.head?, Text.isDigit c = false ∧ c ≠ '.') :
    readFraction? ((fraction.elim [] fun ds => '.' :: ds) ++ rest) = some (fraction, rest) := by
  cases fraction with
  | none =>
    cases rest with
    | nil => rfl
    | cons c cs => simp [readFraction?, (hrest c (by simp)).2]
  | some ds =>
    have hds : readDigits? (ds ++ rest) = some (ds, rest) :=
      readDigits?_append (h ds rfl) fun c hc => (hrest c hc).1
    simp [readFraction?, hds]

/-- A literal reads back to its value, and no further. -/
theorem readNumber?_chars {n : Numeral} (h : n.IsFormed) {rest : List Char} (hrest : Ends rest) :
    readNumber? (n.chars ++ rest) = some (n.value, rest) := by
  -- From the back: the exponent, the fraction, the digits before the point, and the sign.
  set tail := (n.power.elim [] fun p => 'e' :: (if p.1 then '-' else '+') :: p.2) ++ rest with htail
  have hpower : readPower? tail = some (n.power.any Prod.fst, n.power.map Prod.snd, rest) :=
    readPower?_append h.power hrest
  have hends : ∀ c ∈ tail.head?, Text.isDigit c = false ∧ c ≠ '.' := by
    rw [htail]
    cases hp : n.power with
    | none => exact fun c hc => ⟨(hrest c hc).1, (hrest c hc).2.1⟩
    | some p => simp [show Text.isDigit 'e' = false by decide]
  have hfraction : readFraction? ((n.fraction.elim [] fun ds => '.' :: ds) ++ tail) =
      some (n.fraction, tail) := readFraction?_append h.fraction hends
  have hwhole : readDigits? (n.whole ++ ((n.fraction.elim [] fun ds => '.' :: ds) ++ tail)) =
      some (n.whole, (n.fraction.elim [] fun ds => '.' :: ds) ++ tail) := by
    refine readDigits?_append h.whole fun c hc => ?_
    cases hf : n.fraction with
    | none => exact (hends c (by simpa [hf] using hc)).1
    | some ds =>
      have : c = '.' := by simpa [hf, eq_comm] using hc
      rw [this]
      decide
  have hzeros : ¬(1 < n.whole.length ∧ n.whole.head? = some '0') := fun hz => h.noZeros hz.1 hz.2
  have hunsigned : readUnsigned? n.negative
      (n.whole ++ ((n.fraction.elim [] fun ds => '.' :: ds) ++ tail)) = some (n.value, rest) := by
    simp only [readUnsigned?, hwhole, if_neg hzeros, hfraction, hpower, Numeral.value]
  have hchars : n.chars ++ rest = (if n.negative then ['-'] else []) ++
      (n.whole ++ ((n.fraction.elim [] fun ds => '.' :: ds) ++ tail)) := by
    simp only [Numeral.chars, htail, List.append_assoc]
  rw [hchars]
  cases hneg : n.negative with
  | true => simpa [readNumber?, hneg] using hunsigned
  | false =>
    obtain ⟨d, ds, hds⟩ := List.exists_cons_of_ne_nil h.whole.1
    have hd : d ≠ '-' := by
      rintro rfl
      have := h.whole.2 '-' (by simp [hds])
      revert this
      decide
    rw [hneg, hds] at hunsigned
    simp only [hds, Bool.false_eq_true, if_false, List.nil_append, List.cons_append] at hunsigned ⊢
    rw [readNumber?.eq_def]
    split
    · simp_all
    · exact hunsigned

/-- The digits of a number have no zero in front unless they are a zero. -/
theorem head?_toDigits {n : Nat} (h : n ≠ 0) : (Nat.toDigits 10 n).head? ≠ some '0' := by
  induction n using Nat.strongRecOn with
  | ind n ih =>
    by_cases hn : n < 10
    · rw [Nat.toDigits_of_lt_base hn]
      simp [h]
    · have hdigits := Nat.toDigits_of_base_le (b := 10) (by decide) (Nat.le_of_not_lt hn)
      have hfront := ih (n / 10) (by omega) (by omega)
      cases hds : Nat.toDigits 10 (n / 10) with
      | nil => exact absurd hds Nat.toDigits_ne_nil
      | cons d ds =>
        rw [hdigits, hds]
        rw [hds] at hfront
        simpa using hfront

theorem isDigits_toDigits (n : Nat) : Numeral.IsDigits (Nat.toDigits 10 n) :=
  ⟨Nat.toDigits_ne_nil, fun _ hc => Text.isDigit_of_mem_toDigits hc⟩

theorem noZeros_toDigits (n : Nat) :
    1 < (Nat.toDigits 10 n).length → (Nat.toDigits 10 n).head? ≠ some '0' := by
  by_cases hn : n = 0
  · subst hn
    simp [Nat.toDigits_zero]
  · exact fun _ => head?_toDigits hn

/-- The literal that an integer is written as. -/
def Numeral.ofInt (n : Int) : Numeral :=
  { negative := n < 0, whole := Nat.toDigits 10 n.natAbs, fraction := none, power := none }

theorem Numeral.chars_ofInt (n : Int) : (Numeral.ofInt n).chars = (toString n).toList := by
  rw [Text.toList_toString]
  simp [Numeral.chars, Numeral.ofInt]

theorem Numeral.isFormed_ofInt (n : Int) : (Numeral.ofInt n).IsFormed where
  whole := isDigits_toDigits _
  noZeros := noZeros_toDigits _
  fraction := by simp [Numeral.ofInt]
  power := by simp [Numeral.ofInt]

theorem takeDigits_of_lt {cs : List Char} {significand : Nat}
    (h : Nat.ofDigitChars 10 cs significand < UInt64.size) :
    takeDigits significand cs = (Nat.ofDigitChars 10 cs significand, []) := by
  induction cs generalizing significand with
  | nil => simp [takeDigits]
  | cons c cs ih =>
    rw [Nat.ofDigitChars_cons] at h ⊢
    -- What is read so far is no larger than the whole, so it fits as well.
    have hle : 10 * significand + (c.toNat - '0'.toNat) ≤
        Nat.ofDigitChars 10 cs (10 * significand + (c.toNat - '0'.toNat)) := by
      rw [Nat.ofDigitChars_eq_ofDigitChars_zero]
      exact (Nat.le_mul_of_pos_left _ (Nat.pow_pos (by decide))).trans (Nat.le_add_right _ _)
    have hcomm : significand * 10 + (c.toNat - '0'.toNat) =
        10 * significand + (c.toNat - '0'.toNat) := by omega
    rw [takeDigits, hcomm, if_pos (Nat.lt_of_le_of_lt hle h), ih h]

/-- All the digits are taken only when the number fits. -/
theorem lt_of_takeDigits {cs : List Char} {significand : Nat} (hs : significand < UInt64.size)
    (h : (takeDigits significand cs).2 = []) :
    Nat.ofDigitChars 10 cs significand < UInt64.size := by
  induction cs generalizing significand with
  | nil => simpa using hs
  | cons c cs ih =>
    rw [takeDigits] at h
    split at h
    · rename_i hnext
      rw [Nat.ofDigitChars_cons, Nat.mul_comm]
      exact ih hnext h
    · cases h

/-- An integer in the 64-bit range, signed or unsigned, is read as itself. -/
theorem Numeral.value_ofInt {n : Int} (hlow : -(2 : Int) ^ 63 ≤ n) (hhigh : n < 2 ^ 64) :
    (Numeral.ofInt n).value = .int n := by
  have hsize : UInt64.size = 2 ^ 64 := rfl
  have htake : takeDigits 0 (Nat.toDigits 10 n.natAbs) = (n.natAbs, []) := by
    have hfits : Nat.ofDigitChars 10 (Nat.toDigits 10 n.natAbs) 0 < UInt64.size := by
      rw [Nat.ofDigitChars_ten_toDigits]
      omega
    rw [takeDigits_of_lt hfits, Nat.ofDigitChars_ten_toDigits]
  simp only [Numeral.value, Numeral.ofInt, ofNumber, htake, Option.map_none, true_and, if_true]
  by_cases hn : n < 0
  · rw [if_pos (by simpa using hn), if_neg (by omega), Int.ofNat_natAbs_of_nonpos (by omega),
      Int.neg_neg]
  · rw [if_neg (by simpa using hn), Int.natAbs_of_nonneg (by omega)]

/-- An index reads back unless it is past the 64-bit range, and then it is not
    read as an index at all. -/
theorem index?_value_ofInt (n : Nat) :
    index? (Numeral.ofInt n).value = if n < UInt64.size then some n else none := by
  split
  · rename_i hn
    have hsize : UInt64.size = 2 ^ 64 := rfl
    rw [Numeral.value_ofInt (by omega) (by omega)]
    simp [index?]
  · rename_i hn
    -- Past the range a digit is dropped, and then the number is no integer.
    have hdropped : (takeDigits 0 (Nat.toDigits 10 n)).2 ≠ [] := fun h =>
      hn (by simpa [Nat.ofDigitChars_ten_toDigits] using lt_of_takeDigits (by decide) h)
    have hneg : ¬(n : Int) < 0 := by omega
    simp only [Numeral.value, Numeral.ofInt, ofNumber, Int.natAbs_natCast, hdropped, hneg,
      Option.map_none, and_false, if_false]
    split
    · split <;> simp [withSign, index?]
    · split <;> simp [withSign, index?]

/-- What the digits of a decimal have to be like to be written around a point:
    a zero in front stands alone, and is not made larger. -/
def Numeral.Leads (ds : List Char) (power : Int) : Prop :=
  ds.head? ≠ some '0' ∨ ds = ['0'] ∧ power ≤ 0

theorem exists_numeral_positional {ds : List Char} {power : Int} (hds : Numeral.IsDigits ds)
    (hlead : Numeral.Leads ds power) :
    ∃ n : Numeral, n.IsFormed ∧ n.negative = false ∧
      n.chars = Number.positional ds power ['.', '0'] := by
  have hzero : Numeral.IsDigits ['0'] := ⟨by simp, List.all_eq_true.1 (by decide)⟩
  have hzeros : ∀ k, ∀ c ∈ List.replicate k '0', Text.isDigit c = true := fun k c hc => by
    rw [List.eq_of_mem_replicate hc]
    decide
  have hlength : 0 < ds.length := List.length_pos_iff.2 hds.1
  unfold Number.positional
  simp only
  split
  · rename_i hpower
    refine ⟨⟨false, ds ++ List.replicate power.toNat '0', some ['0'], none⟩, ⟨?_, ?_, ?_, ?_⟩, rfl,
      by simp [Numeral.chars]⟩
    · exact ⟨by simp [hds.1], fun c hc => (List.mem_append.1 hc).elim (hds.2 c) (hzeros _ c)⟩
    · intro hlong
      rcases hlead with hhead | ⟨rfl, hle⟩
      · cases ds with
        | nil => exact absurd rfl hds.1
        | cons d ds => simpa using hhead
      · -- A lone zero comes with no zeros after it.
        have : power.toNat = 0 := by omega
        simp [this] at hlong
    · simp only [Option.mem_def, Option.some.injEq, forall_eq']
      exact hzero
    · simp
  · rename_i hpower
    split
    · rename_i hpoint
      refine ⟨⟨false, ds.take ((ds.length : Int) + power).toNat,
        some (ds.drop ((ds.length : Int) + power).toNat), none⟩, ⟨?_, ?_, ?_, ?_⟩, rfl,
        by simp [Numeral.chars]⟩
      · refine ⟨fun (h : ds.take _ = []) => ?_, fun c hc => hds.2 c (List.mem_of_mem_take hc)⟩
        have hnone : min ((ds.length : Int) + power).toNat ds.length = 0 := by
          rw [← List.length_take, h, List.length_nil]
        omega
      · intro hlong
        have hhead : ds.head? ≠ some '0' := hlead.resolve_right fun h => by
          have : ds.length = 1 := by rw [h.1]; rfl
          rw [List.length_take] at hlong
          omega
        rw [List.head?_take]
        split <;> simp_all
      · simp only [Option.mem_def, Option.some.injEq, forall_eq']
        refine ⟨fun h => ?_, fun c hc => hds.2 c (List.mem_of_mem_drop hc)⟩
        have hnone : ds.length - ((ds.length : Int) + power).toNat = 0 := by
          rw [← List.length_drop, h, List.length_nil]
        omega
      · simp
    · refine ⟨⟨false, ['0'], some (List.replicate (-((ds.length : Int) + power)).toNat '0' ++ ds),
        none⟩, ⟨hzero, by simp, ?_, by simp⟩, rfl, by simp [Numeral.chars]⟩
      simp only [Option.mem_def, Option.some.injEq, forall_eq']
      exact ⟨by simp [hds.1], fun c hc => (List.mem_append.1 hc).elim (hzeros _ c) (hds.2 c)⟩

theorem exists_numeral_scientific {ds : List Char} (power : Int) (hds : Numeral.IsDigits ds) :
    ∃ n : Numeral, n.IsFormed ∧ n.negative = false ∧ n.chars = scientific ds power := by
  obtain ⟨d, rest, rfl⟩ := List.exists_cons_of_ne_nil hds.1
  let e := ((d :: rest).length : Int) + power - 1
  have hwhole : Numeral.IsDigits [d] :=
    ⟨by simp, fun c hc => hds.2 c (by simp [List.mem_singleton.1 hc])⟩
  have hpower : ∀ p ∈ some (decide (e < 0), Nat.toDigits 10 e.natAbs), Numeral.IsDigits p.2 := by
    simp only [Option.mem_def, Option.some.injEq, forall_eq']
    exact isDigits_toDigits _
  cases rest with
  | nil =>
    refine ⟨⟨false, [d], none, some (decide (e < 0), Nat.toDigits 10 e.natAbs)⟩,
      ⟨hwhole, by simp, by simp, hpower⟩, rfl, ?_⟩
    simp [Numeral.chars, scientific, e]
  | cons d' rest =>
    refine ⟨⟨false, [d], some (d' :: rest), some (decide (e < 0), Nat.toDigits 10 e.natAbs)⟩,
      ⟨hwhole, by simp, ?_, hpower⟩, rfl, ?_⟩
    · simp only [Option.mem_def, Option.some.injEq, forall_eq']
      exact ⟨by simp, fun c hc => hds.2 c (List.mem_cons_of_mem _ hc)⟩
    · simp [Numeral.chars, scientific, e]

/-- A double is written as a number or, when it has no digits, as `null`. -/
theorem floatChars_eq (x : Float) :
    floatChars x = ['n', 'u', 'l', 'l'] ∨ ∃ n : Numeral, n.IsFormed ∧ floatChars x = n.chars := by
  unfold floatChars
  split
  · rename_i negative m e _
    right
    have hshort := Number.shortest_ne_zero .even m e
    generalize Number.shortest .even m e = d at hshort ⊢
    obtain ⟨digits, power⟩ := d
    simp only at hshort ⊢
    have hds := isDigits_toDigits digits
    have hlead : Numeral.Leads (Nat.toDigits 10 digits) power := by
      by_cases hzero : digits = 0
      · refine .inr ⟨by rw [hzero, Nat.toDigits_zero], Int.le_of_eq ?_⟩
        exact hshort.resolve_left (not_not.2 hzero)
      · exact .inl (head?_toDigits hzero)
    have hbody : ∃ n : Numeral, n.IsFormed ∧ n.negative = false ∧ n.chars =
        if -5 < ((Nat.toDigits 10 digits).length : Int) + power ∧
            ((Nat.toDigits 10 digits).length : Int) + power ≤ 16
        then Number.positional (Nat.toDigits 10 digits) power ['.', '0']
        else scientific (Nat.toDigits 10 digits) power := by
      split
      · exact exists_numeral_positional hds hlead
      · exact exists_numeral_scientific power hds
    obtain ⟨n, hn, hpositive, hchars⟩ := hbody
    refine ⟨{ n with negative }, ⟨hn.whole, hn.noZeros, hn.fraction, hn.power⟩, ?_⟩
    rw [← hchars]
    cases negative <;> simp [Numeral.chars, hpositive]
  · exact .inl rfl

end Json

end Worksheet
