import Mathlib

/-!
# The Sign of a Double

A minus sign in front of a double is a factor of minus one, and in a product it
can stand in front of either factor.

An operation on doubles unpacks its operands, works on sign, mantissa and
exponent, rounds, and packs the result again. A sign in the middle of a product
is therefore packed and unpacked once more than the product itself, and the
first part is that this loses nothing: a negation flips the sign bit and leaves
the other bits as they are.

The second part is that multiplying with minus one rounds nothing away. The
mantissa of minus one is a power of two, so the product has the mantissa of the
other factor with zeros behind it, and rounding drops exactly these zeros
because the mantissa already had the number of bits that rounding aims at.

## Main definitions

* `flipped`: Bits with the other sign.

## Theorems

* `unpack_neg`: A negated double unpacks to the negated parts.
* `roundWithAccuracy_shifted`: Rounding drops the zeros behind a mantissa.
* `mul_neg_one`, `neg_one_mul`: A factor of minus one is a minus sign.
* `neg_mul_comm`: A minus sign moves from one factor to the other.
-/

namespace Worksheet

namespace Number

open Float.Model (Format totalExponent UnpackedFloat)
open Float.Model.UnpackedFloat

/-! ## Negation -/

/-- Bits with the other sign. -/
def flipped (b : BitVec Format.binary64.numBits) : BitVec Format.binary64.numBits :=
  packComponents .binary64 (-Sign.ofBitVec (unpackSign b)) (unpackExponent b) (unpackMantissa b)

/-- The other sign is the only difference. -/
theorem unpack_flipped (b : BitVec Format.binary64.numBits) :
    unpack .binary64 (flipped b) = (unpack .binary64 b).neg := by
  simp only [unpack, flipped, unpackExponent_packComponents, unpackMantissa_packComponents,
    unpackSign_packComponents, Sign.ofBitVec_toBitVec]
  split_ifs <;> rfl

/-- A negated double unpacks to the negated parts. -/
theorem unpack_neg (f : Float.Model) : (-f).unpack = f.unpack.neg := by
  change unpack .binary64 (pack .binary64 f.unpack.neg) = f.unpack.neg
  by_cases hnan : f.unpack = .notANumber
  · rw [hnan]
    rfl
  · -- Bits of a number are valid with either sign, and valid bits are packed as they were.
    have hvalid : Format.binary64.Valid (flipped f.toBits.toBitVec) := by
      refine ⟨fun hexponent hmantissa => absurd ?_ hnan⟩
      simp only [flipped, unpackExponent_packComponents,
        unpackMantissa_packComponents] at hexponent hmantissa
      simp [Float.Model.unpack, unpack, hexponent, hmantissa]
    have hflip : f.unpack.neg = unpack .binary64 (flipped f.toBits.toBitVec) :=
      (unpack_flipped _).symm
    rw [hflip, pack_unpack_of_valid hvalid]

/-! ## Rounding -/

/-- The exponent that rounding aims at. -/
theorem targetExponent_eq (m : Nat) (e : Int) :
    Format.binary64.targetExponent (totalExponent m e) = max ((m.log2 : Int) + e - 52) (-1074) := by
  have hbits : (Format.binary64.mantissaBits : Int) = 53 := rfl
  have hmin : Format.binary64.minExponent = -1074 := by decide
  rw [Format.targetExponent, totalExponent, hbits, hmin]
  omega

/-- What a double unpacks to has the exponent that rounding aims at. -/
theorem targetExponent_unpack {b : BitVec Format.binary64.numBits} {s : Sign} {m : Nat} {e : Int}
    {hm : 0 < m} (h : unpack .binary64 b = .finite s m e hm) :
    Format.binary64.targetExponent (totalExponent m e) = e := by
  have hbias : Format.binary64.exponentBias = 1023 := by decide
  have hlt : (unpackMantissa b).toNat < 2 ^ 52 := (unpackMantissa b).isLt
  rw [targetExponent_eq]
  unfold unpack at h
  dsimp only at h
  rw [hbias] at h
  split_ifs at h with hinf hnan hexp hzero
  · -- A subnormal number has the least exponent and a mantissa of at most 52 bits.
    obtain ⟨-, rfl, rfl⟩ := UnpackedFloat.finite.inj h
    have hlog := (Nat.log2_lt (Nat.ne_of_gt hm)).2 hlt
    have hzero : (unpackExponent b).toNat = 0 := by rw [hexp]; rfl
    omega
  · -- The leading bit of a normal number is added in front of the 52 others.
    obtain ⟨-, rfl, rfl⟩ := UnpackedFloat.finite.inj h
    have hmantissa : (1#1 ++ unpackMantissa b).toNat = 2 ^ 52 + (unpackMantissa b).toNat := by
      rw [BitVec.toNat_append, ← Nat.shiftLeft_add_eq_or_of_lt (unpackMantissa b).isLt]
      rfl
    have hlog : (1#1 ++ unpackMantissa b).toNat.log2 = 52 := by
      rw [hmantissa, Nat.log2_eq_iff (by omega)]
      omega
    have hpos : (unpackExponent b).toNat ≠ 0 := fun h0 => hexp (BitVec.eq_of_toNat_eq h0)
    rw [hlog]
    omega

/-- Zeros behind a mantissa raise its leading bit. -/
theorem log2_shifted {m : Nat} (hm : m ≠ 0) (k : Nat) : (m * 2 ^ k).log2 = m.log2 + k := by
  induction k with
  | zero => simp
  | succ k ih =>
    have hne : m * 2 ^ k ≠ 0 := Nat.mul_ne_zero hm (by positivity)
    rw [Nat.pow_succ', Nat.mul_left_comm, Nat.log2_two_mul hne, ih]
    rfl

/-- Shifting the zeros out again leaves nothing to be rounded. -/
theorem shiftRight_shifted (m k : Nat) :
    (ExtendedMantissa.ofMantissaAndAccuracy (m * 2 ^ k) .exact >>> k) =
      ExtendedMantissa.ofMantissaAndAccuracy m .exact := by
  change Nat.repeat ExtendedMantissa.shiftRightOne k _ = _
  induction k generalizing m with
  | zero => simp [Nat.repeat]
  | succ k ih =>
    rw [Nat.repeat, Nat.pow_succ', ← Nat.mul_assoc, ih]
    simp [ExtendedMantissa.shiftRightOne, ExtendedMantissa.ofMantissaAndAccuracy]

section

variable {m : Nat} {e : Int} (hm : 0 < m)
  (htarget : Format.binary64.targetExponent (totalExponent m e) = e)

include hm htarget

/-- Zeros behind a mantissa that has the exponent rounding aims at are shifted out. -/
theorem shiftToTargetExponent_shifted (k : Nat) :
    shiftToTargetExponent .binary64 (m * 2 ^ k) (e - k) .exact =
      (ExtendedMantissa.ofMantissaAndAccuracy m .exact, e) := by
  have htotal : totalExponent (m * 2 ^ k) (e - k) = totalExponent m e := by
    rw [totalExponent, totalExponent, log2_shifted (Nat.ne_of_gt hm)]
    omega
  have hamount : (e - (e - k)).toNat = k := by omega
  simp only [shiftToTargetExponent, htotal, htarget, shiftToExponent, hamount, shiftRight_shifted,
    Int.sub_add_cancel]

/-- Rounding drops the zeros behind a mantissa that has the exponent it aims at. -/
theorem roundWithAccuracy_shifted (s : Sign) (k : Nat) :
    roundWithAccuracy .binary64 s (m * 2 ^ k) (e - k) .exact = .finite s m e hm := by
  -- The first shift has dropped the zeros, so there is nothing left for the second one.
  have hsecond : shiftToTargetExponent .binary64 m e .exact =
      (ExtendedMantissa.ofMantissaAndAccuracy m .exact, e) := by
    simpa using shiftToTargetExponent_shifted hm htarget 0
  rw [roundWithAccuracy, shiftToTargetExponent_shifted hm htarget]
  simp only [ExtendedMantissa.ofMantissaAndAccuracy, ExtendedMantissa.roundedMantissa,
    ExtendedMantissa.accuracy, Accuracy.roundToNearestEven, hsecond]
  rw [dif_neg (Nat.ne_of_gt hm)]

end

/-! ## Products -/

/-- Minus one has a single leading bit. -/
theorem unpack_neg_one :
    (-1 : Float).toModel.unpack = .finite .negative (2 ^ 52) (-52) (by decide) := rfl

/-- A factor of minus one negates the parts of a double. -/
theorem unpacked_mul_neg_one (f : Float.Model) :
    UnpackedFloat.mul .binary64 f.unpack (-1 : Float).toModel.unpack = f.unpack.neg := by
  rw [unpack_neg_one]
  cases hf : f.unpack with
  | notANumber => rfl
  | infinity s => cases s <;> rfl
  | zero s => cases s <;> rfl
  | finite s m e hm =>
    have hsign : s * .negative = -s := by cases s <;> rfl
    calc UnpackedFloat.mul .binary64 (.finite s m e hm) (.finite .negative (2 ^ 52) (-52) _)
      _ = roundWithAccuracy .binary64 (s * .negative) (m * 2 ^ 52) (e - (52 : Nat)) .exact := rfl
      _ = .finite (s * .negative) m e hm :=
        roundWithAccuracy_shifted hm (targetExponent_unpack hf) _ 52
      _ = (UnpackedFloat.finite s m e hm).neg := by rw [hsign]; rfl

/-- A product does not depend on the order of its factors. -/
theorem unpacked_mul_comm (u v : UnpackedFloat) :
    UnpackedFloat.mul .binary64 u v = UnpackedFloat.mul .binary64 v u := by
  have hsign (s t : Sign) : s * t = t * s := by cases s <;> cases t <;> rfl
  cases u <;> cases v <;> simp only [UnpackedFloat.mul, hsign, Nat.mul_comm, Int.add_comm]

/-- The sign of either factor is the sign of the product. -/
theorem unpacked_neg_mul_comm (u v : UnpackedFloat) :
    UnpackedFloat.mul .binary64 u.neg v = UnpackedFloat.mul .binary64 u v.neg := by
  have hsign (s t : Sign) : -s * t = s * -t := by cases s <;> cases t <;> rfl
  cases u <;> cases v <;> simp only [UnpackedFloat.neg, UnpackedFloat.mul, hsign]

/-- A factor of minus one is a minus sign. -/
theorem mul_neg_one (x : Float) : x * -1 = -x := by
  change Float.ofModel (.pack (UnpackedFloat.mul .binary64 x.toModel.unpack _)) = _
  rw [unpacked_mul_neg_one]
  rfl

/-- It is one on the left as well. -/
theorem neg_one_mul (x : Float) : -1 * x = -x := by
  change Float.ofModel (.pack (UnpackedFloat.mul .binary64 _ x.toModel.unpack)) = _
  rw [unpacked_mul_comm, unpacked_mul_neg_one]
  rfl

/-- A minus sign moves from one factor to the other. -/
theorem neg_mul_comm (x y : Float) : -x * y = x * -y := by
  change Float.ofModel (.pack (UnpackedFloat.mul .binary64 (-x.toModel).unpack y.toModel.unpack)) =
    Float.ofModel (.pack (UnpackedFloat.mul .binary64 x.toModel.unpack (-y.toModel).unpack))
  rw [unpack_neg, unpack_neg, unpacked_neg_mul_comm]

end Number

end Worksheet
