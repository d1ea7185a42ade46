import Worksheet.Number.Notation
import Worksheet.Proofs.Number.Sign
import Worksheet.Proofs.Text.Letter

/-!
# Whole Numbers as Doubles

A whole number of no more than fifty-three bits is read, added to another one and written
without any rounding.

A mantissa has room for fifty-three bits, and such a number fills it up with zeros. What a
double unpacks to is therefore known for each of these numbers, and it is the same
however the double came about: the nearest one to a decimal, a converted integer and a
sum have the same parts. Every operation ends with rounding, and rounding takes off the
zeros that the operation left behind the number, or fills up with more of them, but never
comes to a digit of the number itself.

What is read and written are decimal digits. A number that is too large to be written as
an integer is written with ten places instead, and these are zeros, which are taken off
again together with the point. So the text of a whole number is that of the integer in
either case.

## Main definitions

* `wholeParts`: The parts of a whole number.
* `IsWhole`: The doubles that are whole numbers.

## Theorems

* `normalize_whole`: Rounding keeps a whole number.
* `parts_eq`: Taking apart is unpacking.
* `IsWhole.add`, `IsWhole.neg`, `IsWhole.mul_one`: Operations without rounding.
* `isWhole_ofInt`, `isWhole_nearest`: Converted and read numbers.
* `read?_toDigits`, `IsWhole.toText_eq`: Digits are read as a number and written for it.
-/

namespace Worksheet

namespace Number

open Float.Model (Format totalExponent UnpackedFloat)
open Float.Model.UnpackedFloat

/-! ## The parts of a whole number -/

/-- The parts of the double that is a whole number: the number is shifted up until its
    mantissa has fifty-three bits. -/
def wholeParts (z : Int) : UnpackedFloat :=
  if h : z = 0 then .zero .positive
  else .finite (if z < 0 then .negative else .positive) (z.natAbs * 2 ^ (52 - z.natAbs.log2))
    (z.natAbs.log2 - 52) (Nat.mul_pos (Int.natAbs_pos.2 h) (Nat.two_pow_pos _))

/-- Is a double a whole number, of no more than fifty-three bits? -/
structure IsWhole (x : Float) (z : Int) : Prop where
  small : z.natAbs < 2 ^ 53
  parts : x.toModel.unpack = wholeParts z

theorem wholeParts_zero : wholeParts 0 = .zero .positive := rfl

variable {n : Nat}

theorem log2_le_of_small (h : n < 2 ^ 53) : n.log2 ≤ 52 := by
  rcases Nat.eq_zero_or_pos n with rfl | hpos
  · simp
  · exact Nat.lt_succ_iff.1 ((Nat.log2_lt (Nat.ne_of_gt hpos)).2 h)

/-- A number that is shifted up to fifty-three bits has them. -/
theorem log2_shifted_up (hn : 0 < n) (h : n < 2 ^ 53) : (n * 2 ^ (52 - n.log2)).log2 = 52 := by
  rw [log2_shifted (Nat.ne_of_gt hn)]
  have := log2_le_of_small h
  omega

theorem targetExponent_shifted_up (hn : 0 < n) (h : n < 2 ^ 53) :
    Format.binary64.targetExponent (totalExponent (n * 2 ^ (52 - n.log2)) ((n.log2 : Int) - 52)) =
      (n.log2 : Int) - 52 := by
  rw [targetExponent_eq, log2_shifted_up hn h]
  omega

/-- Rounding a whole number, with zeros behind the point, gives the number back. -/
theorem round_whole (s : Sign) (hn : 0 < n) (h : n < 2 ^ 53) (k : Nat) :
    UnpackedFloat.round .binary64 s (n * 2 ^ k) (-k) =
      .finite s (n * 2 ^ (52 - n.log2)) ((n.log2 : Int) - 52)
        (Nat.mul_pos hn (Nat.two_pow_pos _)) := by
  have hlog := log2_le_of_small h
  have htarget : Format.binary64.targetExponent (totalExponent (n * 2 ^ k) (-k)) =
      (n.log2 : Int) - 52 := by
    rw [targetExponent_eq, log2_shifted (Nat.ne_of_gt hn)]
    omega
  -- The mantissa is filled up to fifty-three bits, and longer ones are rounded to them.
  have hfill : decreaseExponent (n * 2 ^ k) (-k) ((n.log2 : Int) - 52) =
      (n * 2 ^ (52 - n.log2) * 2 ^ (k - (52 - n.log2)),
        ((n.log2 : Int) - 52) - ((k - (52 - n.log2) : Nat) : Int)) := by
    simp only [decreaseExponent, Nat.shiftLeft_eq, Nat.mul_assoc, ← Nat.pow_add, Prod.mk.injEq]
    refine ⟨?_, by omega⟩
    congr 2
    omega
  simp only [UnpackedFloat.round, htarget, hfill]
  exact roundWithAccuracy_shifted _ (targetExponent_shifted_up hn h) s _

/-- A whole number is not changed by being written as a double. -/
theorem normalize_whole {z : Int} (h : z.natAbs < 2 ^ 53) (k : Nat) :
    UnpackedFloat.normalize .binary64 (z * 2 ^ k) (-k) .positive = wholeParts z := by
  have hpow : (0 : Int) < 2 ^ k := by positivity
  have habs : (z * 2 ^ k).natAbs = z.natAbs * 2 ^ k := by rw [Int.natAbs_mul, Int.natAbs_pow]; rfl
  rcases Int.lt_trichotomy z 0 with hneg | rfl | hpos
  · have hlt : z * 2 ^ k < 0 := Int.mul_neg_of_neg_of_pos hneg hpow
    have hcompare : compare (z * 2 ^ k) 0 = .lt := compare_lt_iff_lt.2 hlt
    have hmantissa : (-(z * 2 ^ k)).toNat = z.natAbs * 2 ^ k := by omega
    simp only [UnpackedFloat.normalize, wholeParts, dif_neg (Int.ne_of_lt hneg), if_pos hneg,
      hcompare, hmantissa]
    exact round_whole _ (Int.natAbs_pos.2 (Int.ne_of_lt hneg)) h k
  · rw [Int.zero_mul]
    rfl
  · have hlt : 0 < z * 2 ^ k := Int.mul_pos hpos hpow
    have hcompare : compare (z * 2 ^ k) 0 = .gt := compare_gt_iff_gt.2 hlt
    have hmantissa : (z * 2 ^ k).toNat = z.natAbs * 2 ^ k := by omega
    simp only [UnpackedFloat.normalize, wholeParts, dif_neg (Int.ne_of_gt hpos),
      if_neg (Int.not_lt.2 hpos.le), hcompare, hmantissa]
    exact round_whole _ (Int.natAbs_pos.2 (Int.ne_of_gt hpos)) h k

/-! ## Packing -/

/-- A mantissa of fifty-three bits has its leading one in front of fifty-two others. -/
theorem toNat_leading {m : Nat} (hm : m.log2 = 52) : (1#1 ++ BitVec.ofNat 52 m).toNat = m := by
  have hne : m ≠ 0 := by
    rintro rfl
    simp at hm
  obtain ⟨hlow, hhigh⟩ := (Nat.log2_eq_iff hne).1 hm
  rw [BitVec.toNat_append, ← Nat.shiftLeft_add_eq_or_of_lt (BitVec.isLt _), BitVec.toNat_ofNat]
  simp only [BitVec.toNat_ofNat, Nat.shiftLeft_eq]
  omega

/-- The parts of a number with fifty-three bits are packed without loss. -/
theorem unpack_pack_of_log2 {s : Sign} {m : Nat} {e : Int} {hm : 0 < m} (hlog : m.log2 = 52)
    (hlow : -1074 ≤ e) (hhigh : e ≤ 971) :
    unpack .binary64 (pack .binary64 (.finite s m e hm)) = .finite s m e hm := by
  have hbias : Format.binary64.exponentBias = 1023 := by decide
  obtain ⟨b, hb⟩ : ∃ b : Nat, e = (b : Int) - 1075 := ⟨(e + 1075).toNat, by omega⟩
  have hexponent : (BitVec.ofNat 11 b).toNat = b := by
    rw [BitVec.toNat_ofNat]
    omega
  have hpack : pack .binary64 (.finite s m e hm) =
      packComponents .binary64 s (BitVec.ofNat 11 b) (BitVec.ofNat 52 m) := by
    have hbiased : (e + (1023 : Nat) + (52 : Nat)).toNat = b := by omega
    rw [pack]
    simp only [hbias, hbiased]
    rw [if_neg (by omega), if_pos (by rw [hlog]; rfl)]
  have hnotInfinite : BitVec.ofNat 11 b ≠ -1#11 := by
    intro heq
    have := congrArg BitVec.toNat heq
    rw [hexponent] at this
    simp at this
    omega
  have hnormal : BitVec.ofNat 11 b ≠ 0#11 := by
    intro heq
    have := congrArg BitVec.toNat heq
    rw [hexponent] at this
    simp at this
    omega
  simp only [hpack, unpack, unpackExponent_packComponents, unpackMantissa_packComponents,
    unpackSign_packComponents, Sign.ofBitVec_toBitVec, hbias, if_neg hnotInfinite, if_neg hnormal,
    toNat_leading hlog, hexponent]
  congr 1
  omega

/-! ## Taking apart -/

/-- Taking a double apart by its bits is unpacking it. -/
theorem parts_eq (x : Float) : Number.parts x = match x.toModel.unpack with
    | .notANumber => .notANumber
    | .infinity s => .infinite (s == .negative)
    | .zero s => .finite (s == .negative) 0 (-1074)
    | .finite s m e _ => .finite (s == .negative) m e := by
  obtain ⟨b, hb⟩ : ∃ b : BitVec Format.binary64.numBits, b = x.toModel.toBits.toBitVec := ⟨_, rfl⟩
  have hbias : Format.binary64.exponentBias = 1023 := by decide
  have hbits : x.toBits.toNat = b.toNat := by
    rw [hb]
    rfl
  have hlt : b.toNat < 2 ^ 64 := b.isLt
  have hexponent : b.toNat / leadingBit % 2048 = (unpackExponent b).toNat := by
    rw [unpackExponent_def, BitVec.extractLsb'_toNat, Nat.shiftRight_eq_div_pow]
    rfl
  have hmantissa : b.toNat % leadingBit = (unpackMantissa b).toNat := by
    rw [unpackMantissa_def, BitVec.extractLsb'_toNat, Nat.shiftRight_zero]
    rfl
  have hsign : (b.toNat / leadingBit / 2048 == 1) =
      (Sign.ofBitVec (unpackSign b) == .negative) := by
    have htop : (unpackSign b).toNat = b.toNat / leadingBit / 2048 := by
      rw [unpackSign_def, BitVec.extractLsb'_toNat, Nat.shiftRight_eq_div_pow,
        Nat.div_div_eq_div_mul]
      exact Nat.mod_eq_of_lt (by show b.toNat / 2 ^ 63 < 2 ^ 1; omega)
    rw [← htop]
    rcases BitVec.eq_zero_or_eq_one (unpackSign b) with h | h <;> rw [h] <;> rfl
  have hinfinite : unpackExponent b = -1#11 ↔ (unpackExponent b).toNat = 2047 :=
    BitVec.toNat_inj.symm
  have hsubnormal : unpackExponent b = 0#11 ↔ (unpackExponent b).toNat = 0 := BitVec.toNat_inj.symm
  have hzero : unpackMantissa b = 0#52 ↔ (unpackMantissa b).toNat = 0 := BitVec.toNat_inj.symm
  have hnormal : (1#1 ++ unpackMantissa b).toNat = (unpackMantissa b).toNat + leadingBit := by
    rw [BitVec.toNat_append, ← Nat.shiftLeft_add_eq_or_of_lt (unpackMantissa b).isLt, Nat.add_comm]
    rfl
  simp only [Number.parts, hbits, hexponent, hmantissa, hsign, Float.Model.unpack, ← hb, unpack,
    hbias, hinfinite, hsubnormal, hzero]
  by_cases hi : (unpackExponent b).toNat = 2047
  · rw [if_pos hi, if_pos hi]
    split <;> rfl
  · rw [if_neg hi, if_neg hi]
    by_cases hs : (unpackExponent b).toNat = 0
    · rw [if_pos hs, if_pos hs]
      by_cases hz : (unpackMantissa b).toNat = 0
      · rw [dif_pos hz, hz]
      · rw [dif_neg hz]
        simp only [hs]
        rfl
    · rw [if_neg hs, if_neg hs]
      simp only [hnormal]
      rfl

section

variable {x : Float} {z : Int}

/-- The parts of a whole number, taken apart. -/
theorem IsWhole.parts_eq (h : IsWhole x z) (hz : z ≠ 0) : Number.parts x =
    .finite (decide (z < 0)) (z.natAbs * 2 ^ (52 - z.natAbs.log2)) (z.natAbs.log2 - 52) := by
  rw [Number.parts_eq, h.parts, wholeParts, dif_neg hz]
  by_cases hneg : z < 0
  · simp only [if_pos hneg, beq_self_eq_true, decide_eq_true hneg]
  · simp only [if_neg hneg, decide_eq_false hneg]
    rfl

/-- A double that is a whole number is taken to be that number. -/
theorem IsWhole.whole?_eq (h : IsWhole x z) : whole? x = some z := by
  by_cases hz : z = 0
  · subst hz
    rw [whole?, Number.parts_eq, h.parts]
    decide +kernel
  · -- The zeros behind the mantissa are as many as there are places behind the point.
    have hlog := log2_le_of_small h.small
    have hplaces : (-((z.natAbs.log2 : Int) - 52)).toNat = 52 - z.natAbs.log2 := by omega
    have hnone : ((z.natAbs.log2 : Int) - 52).toNat = 0 := by omega
    have hbelow : 0 < 2 ^ (52 - z.natAbs.log2) := Nat.two_pow_pos _
    simp only [whole?, h.parts_eq hz, hplaces, hnone, Nat.pow_eq, Nat.pow_zero, Nat.mul_one,
      Nat.mul_mod_left, Nat.mul_div_cancel _ hbelow, if_true, decide_eq_true_eq]
    congr 1
    split <;> omega

end

/-! ## Calculating -/

section

variable {x y : Float} {z w : Int}

/-- The parts of a whole number are packed without loss. -/
theorem unpack_pack_wholeParts (h : z.natAbs < 2 ^ 53) :
    unpack .binary64 (pack .binary64 (wholeParts z)) = wholeParts z := by
  by_cases hz : z = 0
  · subst hz
    rfl
  · have hlog := log2_le_of_small h
    rw [wholeParts, dif_neg hz]
    exact unpack_pack_of_log2 (log2_shifted_up (Int.natAbs_pos.2 hz) h) (by omega) (by omega)

theorem IsWhole.of_pack {u : UnpackedFloat} (h : z.natAbs < 2 ^ 53) (hu : u = wholeParts z) :
    IsWhole (.ofModel (.pack u)) z where
  small := h
  parts := by
    rw [hu]
    exact unpack_pack_wholeParts h

/-- With enough places behind the point, the mantissa of a whole number is the number with
    that many zeros behind it. -/
theorem apply_aligned (h : z.natAbs < 2 ^ 53) {k : Nat} (hk : 52 - z.natAbs.log2 ≤ k) :
    Sign.apply (if z < 0 then .negative else .positive)
      (decreaseExponent (z.natAbs * 2 ^ (52 - z.natAbs.log2)) (z.natAbs.log2 - 52) (-k)).1 =
        z * 2 ^ k := by
  have hlog := log2_le_of_small h
  have hshift : ((z.natAbs.log2 : Int) - 52 - -k).toNat = k - (52 - z.natAbs.log2) := by omega
  have hmantissa : z.natAbs * 2 ^ (52 - z.natAbs.log2) * 2 ^ (k - (52 - z.natAbs.log2)) =
      z.natAbs * 2 ^ k := by
    rw [Nat.mul_assoc, ← Nat.pow_add, Nat.add_sub_cancel' hk]
  simp only [decreaseExponent, hshift, Nat.shiftLeft_eq, hmantissa]
  push_cast
  split
  · rename_i hneg
    rw [Sign.apply, ← Int.neg_mul, abs_of_neg hneg, Int.neg_neg]
  · rename_i hneg
    rw [Sign.apply, abs_of_nonneg (Int.not_lt.1 hneg)]

/-- The parts of a sum. -/
theorem add_wholeParts (hz : z.natAbs < 2 ^ 53) (hw : w.natAbs < 2 ^ 53)
    (h : (z + w).natAbs < 2 ^ 53) :
    UnpackedFloat.add .binary64 (wholeParts z) (wholeParts w) = wholeParts (z + w) := by
  by_cases hz0 : z = 0
  · subst hz0
    rw [Int.zero_add, wholeParts_zero]
    unfold wholeParts
    split <;> rfl
  by_cases hw0 : w = 0
  · subst hw0
    rw [Int.add_zero, wholeParts_zero, wholeParts, dif_neg hz0]
    rfl
  -- Both numbers get as many places behind the point as the one that has more of them.
  obtain ⟨k, hk⟩ : ∃ k, k = max (52 - z.natAbs.log2) (52 - w.natAbs.log2) := ⟨_, rfl⟩
  have hlogz := log2_le_of_small hz
  have hlogw := log2_le_of_small hw
  have hmin : min ((z.natAbs.log2 : Int) - 52) ((w.natAbs.log2 : Int) - 52) = -k := by omega
  have hsum : z * 2 ^ k + w * 2 ^ k = (z + w) * 2 ^ k := (Int.add_mul ..).symm
  rw [wholeParts, dif_neg hz0, wholeParts, dif_neg hw0, UnpackedFloat.add]
  simp only [hmin]
  rw [apply_aligned hz (by omega), apply_aligned hw (by omega), hsum]
  exact normalize_whole h k

/-- Whole numbers are added without rounding. -/
theorem IsWhole.add (hx : IsWhole x z) (hy : IsWhole y w) (h : (z + w).natAbs < 2 ^ 53) :
    IsWhole (x + y) (z + w) := by
  refine .of_pack h ?_
  rw [hx.parts, hy.parts]
  exact add_wholeParts hx.small hy.small h

theorem IsWhole.neg (hx : IsWhole x z) (hz : z ≠ 0) : IsWhole (-x) (-z) where
  small := by
    rw [Int.natAbs_neg]
    exact hx.small
  parts := by
    have hneg : (-x).toModel.unpack = x.toModel.unpack.neg := unpack_neg _
    rw [hneg, hx.parts, wholeParts, dif_neg hz, wholeParts, dif_neg (Int.neg_ne_zero.2 hz)]
    simp only [UnpackedFloat.neg, Int.natAbs_neg]
    congr 1
    rcases Int.lt_or_gt_of_ne hz with hlt | hgt
    · rw [if_pos hlt, if_neg (by omega)]
      rfl
    · rw [if_neg (by omega), if_pos (by omega)]
      rfl

theorem unpack_one :
    (1 : Float).toModel.unpack = .finite .positive (2 ^ 52) (-52) (by decide) := rfl

theorem IsWhole.mul_one (hx : IsWhole x z) : IsWhole (x * 1) z := by
  refine .of_pack hx.small ?_
  rw [hx.parts, unpack_one]
  by_cases hz : z = 0
  · subst hz
    rfl
  · have hpos := Int.natAbs_pos.2 hz
    have hsign : (if z < 0 then Sign.negative else Sign.positive) * .positive =
        if z < 0 then .negative else .positive := by split <;> rfl
    rw [wholeParts, dif_neg hz, UnpackedFloat.mul, hsign]
    exact roundWithAccuracy_shifted _ (targetExponent_shifted_up hpos hx.small) _ 52

theorem isWhole_ofScientific {n : Nat} (h : n < 2 ^ 53) :
    IsWhole (Float.ofScientific n false 0) n := by
  have hfloat : IsWhole n.toUInt64.toFloat n := by
    refine .of_pack h ?_
    have hn : n.toUInt64.toNat = n := Nat.mod_eq_of_lt (by omega)
    have hnormalize := normalize_whole (z := n) h 0
    rw [Int.pow_zero, Int.mul_one] at hnormalize
    rw [UnpackedFloat.ofUInt64, hn]
    exact hnormalize
  have hmul : Float.ofScientific n false 0 = n.toUInt64.toFloat * 1 := by
    rw [Float.ofScientific, dif_pos ⟨h, Nat.zero_le _⟩]
    rfl
  rw [hmul]
  exact hfloat.mul_one

theorem isWhole_ofInt (h : z.natAbs < 2 ^ 53) : IsWhole (Float.ofInt z) z := by
  cases z with
  | ofNat n => exact isWhole_ofScientific h
  | negSucc n => exact (isWhole_ofScientific h).neg (Int.natCast_ne_zero.2 n.succ_ne_zero)

end

/-! ## Writing -/

/-- A number times a power of ten has as many zeros behind its digits. -/
theorem toDigits_mul_pow {n : Nat} (hn : 0 < n) (k : Nat) :
    Nat.toDigits 10 (n * 10 ^ k) = Nat.toDigits 10 n ++ List.replicate k '0' := by
  induction k with
  | zero => simp
  | succ k ih =>
    have hpos : 0 < n * 10 ^ k := Nat.mul_pos hn (by positivity)
    have hshift : n * 10 ^ (k + 1) = 10 * (n * 10 ^ k) + 0 := by rw [Nat.pow_succ]; ring
    rw [hshift, ← Nat.toDigits_append_toDigits (by decide) hpos (by decide), ih,
      List.append_assoc, List.replicate_succ', Nat.toDigits_zero]

theorem padded_mul_pow {n : Nat} (hn : 0 < n) (k : Nat) :
    padded (k + 1) (n * 10 ^ k) = Nat.toDigits 10 n ++ List.replicate k '0' := by
  have hlength : 0 < (Nat.toDigits 10 n).length := Nat.length_toDigits_pos
  have hnone : k + 1 - (Nat.toDigits 10 n ++ List.replicate k '0').length = 0 := by
    rw [List.length_append, List.length_replicate]
    omega
  simp only [padded, toDigits_mul_pow hn, hnone, List.replicate_zero, List.nil_append]

theorem roundEven_mul {den : Nat} (h : 0 < den) (q : Nat) : roundEven (q * den) den = q := by
  simp only [roundEven, Nat.mul_div_cancel q h, Nat.mul_mod_left, Nat.mul_zero, if_pos h]

/-- A whole number times a power of ten is not rounded. -/
theorem scaled_whole {n : Nat} (h : n < 2 ^ 53) (places : Nat) :
    scaled places (n * 2 ^ (52 - n.log2)) (n.log2 - 52) = n * 10 ^ places := by
  have hlog := log2_le_of_small h
  have hplaces : (-((n.log2 : Int) - 52)).toNat = 52 - n.log2 := by omega
  have hbelow : 0 < 2 ^ (52 - n.log2) := Nat.two_pow_pos _
  unfold scaled
  split
  · have hnone : 52 - n.log2 = 0 := by omega
    have hzero : ((n.log2 : Int) - 52).toNat = 0 := by omega
    rw [hnone, hzero, Nat.pow_eq, Nat.pow_eq, Nat.pow_zero, Nat.mul_one, Nat.mul_one]
  · rw [hplaces, Nat.pow_eq, Nat.pow_eq, Nat.mul_right_comm, roundEven_mul hbelow]

theorem dropEnd_replicate (c : Char) (cs : List Char) (k : Nat) :
    dropEnd c (cs ++ List.replicate k c) = dropEnd c cs := by
  rw [dropEnd, List.reverse_append, List.reverse_replicate, List.dropWhile_append_of_pos, dropEnd]
  intro d hd
  exact beq_iff_eq.2 (List.eq_of_mem_replicate hd)

theorem dropEnd_of_ne {c : Char} {cs : List Char} (h : ∀ d ∈ cs.getLast?, d ≠ c) :
    dropEnd c cs = cs := by
  rcases List.eq_nil_or_concat cs with rfl | ⟨cs, d, rfl⟩
  · rfl
  · have hd : d ≠ c := h d (by simp)
    rw [dropEnd, List.concat_eq_append, List.reverse_append]
    simp [hd]

/-- The point and the zeros behind it are taken off. -/
theorem dropEnd_point {cs : List Char} (h : ∀ d ∈ cs.getLast?, d ≠ '.') (k : Nat) :
    dropEnd '.' (dropEnd '0' (cs ++ '.' :: List.replicate k '0')) = cs := by
  have hpoint : cs ++ '.' :: List.replicate k '0' = cs ++ ['.'] ++ List.replicate k '0' := by simp
  have hzeros : dropEnd '0' (cs ++ ['.']) = cs ++ ['.'] := dropEnd_of_ne (by simp)
  rw [hpoint, dropEnd_replicate, hzeros]
  exact (dropEnd_replicate '.' cs 1).trans (dropEnd_of_ne h)

/-- A whole number is written in full, with and without places. -/
theorem IsWhole.toText_eq {x : Float} {z : Int} (h : IsWhole x z) : toText x = toString z := by
  simp only [toText, h.whole?_eq]
  split
  · rfl
  · rename_i hlarge
    have hz : z ≠ 0 := by
      rintro rfl
      exact hlarge (by decide)
    have hlength : (Nat.toDigits 10 z.natAbs ++ List.replicate 10 '0').length - 10 =
        (Nat.toDigits 10 z.natAbs).length := by
      rw [List.length_append, List.length_replicate, Nat.add_sub_cancel]
    have hfixed : fixed 10 x = (toString z).toList ++ '.' :: List.replicate 10 '0' := by
      simp only [fixed, h.parts_eq hz, scaled_whole h.small,
        padded_mul_pow (Int.natAbs_pos.2 hz), hlength, List.take_left, List.drop_left,
        Text.toList_toString, decide_eq_true_eq]
    have hlast : ∀ d ∈ (toString z).toList.getLast?, d ≠ '.' := by
      rintro d hd rfl
      rw [Text.toList_toString, List.getLast?_append_of_ne_nil _ Nat.toDigits_ne_nil] at hd
      have := Text.isDigit_of_mem_toDigits (List.mem_of_getLast? hd)
      revert this
      decide
    rw [hfixed, dropEnd_point hlast, String.ofList_toList]

/-! ## Reading -/

theorem read?_toDigits (n : Nat) : Literal.read? (Nat.toDigits 10 n) = some ⟨false, n, 0⟩ := by
  have hdigits : ∀ c ∈ Nat.toDigits 10 n, Text.isDigit c = true := fun c hc =>
    Text.isDigit_of_mem_toDigits hc
  have hsign : takeSign (Nat.toDigits 10 n) = (false, Nat.toDigits 10 n) := by
    unfold takeSign
    split
    · rename_i heq
      exact absurd (hdigits '-' (heq ▸ List.mem_cons_self)) (by decide)
    · rename_i heq
      exact absurd (hdigits '+' (heq ▸ List.mem_cons_self)) (by decide)
    · rfl
  simp only [Literal.read?, hsign, List.takeWhile_eq_self_iff.2 hdigits,
    List.dropWhile_eq_nil_iff.2 hdigits]
  simp [Nat.toDigits_ne_nil, readExponent?]

/-- The double nearest to a whole number is the number. -/
theorem isWhole_nearest {n : Nat} (h : n < 2 ^ 53) : IsWhole (nearest n 0) n := by
  unfold nearest
  split
  · rename_i hzero
    subst hzero
    exact ⟨by decide, rfl⟩
  · have hlength : (Nat.toDigits 10 n).length ≤ 16 :=
      (Nat.length_toDigits_le_iff (by decide) (by decide)).2 (by omega)
    rw [if_neg (by omega), if_neg (by omega), if_pos (Int.le_refl 0)]
    exact isWhole_ofScientific h

end Number

end Worksheet
