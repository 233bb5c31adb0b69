import Mathlib
import VesselTraffic.Number.Double

/-!
# Doubles by their parts

The parts that are read off the bits of a double are those that its comparison is done on (`ofDouble_eq`). They are in a normal form:
the mantissa has at most 53 binary digits, and fewer only at the smallest exponent (`normal_ofDouble`).
-/

namespace VesselTraffic.DoubleParts

open Float.Model

/-- A sign that is negative. -/
def isNegative : UnpackedFloat.Sign → Bool
  | .negative => true
  | .positive => false

/-- The parts of a double that is taken apart for its comparison. -/
def ofUnpacked : UnpackedFloat → DoubleParts
  | .notANumber => .nan
  | .infinity s => .infinite (isNegative s)
  | .zero s => .finite (isNegative s) 0 (-1074)
  | .finite s m e _ => .finite (isNegative s) m e

/-- The fraction of a double are its last 52 bits. -/
theorem toNat_unpackMantissa (b : BitVec 64) :
    (@UnpackedFloat.unpackMantissa Format.binary64 b).toNat = b.toNat % 2 ^ 52 := by
  simp [UnpackedFloat.unpackMantissa, BitVec.extractLsb]

/-- The power of a double are the eleven bits before its fraction. -/
theorem toNat_unpackExponent (b : BitVec 64) :
    (@UnpackedFloat.unpackExponent Format.binary64 b).toNat = b.toNat / 2 ^ 52 % 2048 := by
  simp [UnpackedFloat.unpackExponent, BitVec.extractLsb, Nat.shiftRight_eq_div_pow]

/-- The sign of a double is its first bit. -/
theorem isNegative_unpackSign (b : BitVec 64) :
    isNegative (UnpackedFloat.Sign.ofBitVec (@UnpackedFloat.unpackSign Format.binary64 b)) =
      decide (2 ^ 63 ≤ b.toNat) := by
  have hbit : (@UnpackedFloat.unpackSign Format.binary64 b).toNat = b.toNat / 2 ^ 63 % 2 := by
    simp [UnpackedFloat.unpackSign, BitVec.extractLsb, Nat.shiftRight_eq_div_pow]
  have hb := b.isLt
  unfold UnpackedFloat.Sign.ofBitVec
  split
  · rename_i h
    rw [h] at hbit
    have : b.toNat / 2 ^ 63 % 2 = 0 := hbit.symm
    rw [isNegative, eq_comm, decide_eq_false_iff_not]
    omega
  · rename_i h
    have hne : (@UnpackedFloat.unpackSign Format.binary64 b).toNat ≠ 0 := fun e => h (BitVec.eq_of_toNat_eq e)
    rw [isNegative, eq_comm, decide_eq_true_iff]
    omega

/-- The mantissa of a normal double is its fraction behind a leading one. -/
theorem toNat_leadingOne (f : BitVec 52) : (1#1 ++ f).toNat = 2 ^ 52 + f.toNat := by
  rw [BitVec.toNat_append, ← Nat.shiftLeft_add_eq_or_of_lt f.isLt]
  rfl

/-- Both ways of taking a double apart give the same parts. -/
theorem ofDouble_eq (x : Float) : ofDouble x = ofUnpacked x.toModel.unpack := by
  have hbits : x.toBits.toNat = x.toModel.toBits.toBitVec.toNat := rfl
  have hbias : ((Format.binary64.exponentBias : Nat) : Int) = 1023 := rfl
  unfold ofDouble Float.Model.unpack UnpackedFloat.unpack
  simp only [hbits, pow2, Nat.pow_eq]
  generalize x.toModel.toBits.toBitVec = b
  have hm := toNat_unpackMantissa b
  have he := toNat_unpackExponent b
  have hs := isNegative_unpackSign b
  have hfull : @UnpackedFloat.unpackExponent Format.binary64 b = -1#_ ↔ b.toNat / 2 ^ 52 % 2048 = 2047 := by
    rw [← he, ← BitVec.toNat_inj]
    rfl
  have hzero : @UnpackedFloat.unpackExponent Format.binary64 b = 0#_ ↔ b.toNat / 2 ^ 52 % 2048 = 0 := by
    rw [← he, ← BitVec.toNat_inj]
    rfl
  have hfraction : @UnpackedFloat.unpackMantissa Format.binary64 b = 0#_ ↔ b.toNat % 2 ^ 52 = 0 := by
    rw [← hm, ← BitVec.toNat_inj]
    rfl
  simp only [hfull, hzero, hfraction]
  split
  · split
    · exact congrArg DoubleParts.infinite hs.symm
    · rfl
  · split
    · rename_i hpower
      split
      · rename_i hf
        rw [ofUnpacked, hs, hf]
      · rw [ofUnpacked, hs, hm, he, hpower, hbias]
        rfl
    · have hshift : (1023 : Int) + ((52 : Nat) : Int) = 1075 := rfl
      rw [ofUnpacked, hs, toNat_leadingOne, hm, he, hbias, hshift]

/-- A mantissa and an exponent in normal form: the mantissa has at most 53 binary digits, and fewer only at the smallest exponent. -/
structure Normal (m : Nat) (e : Int) : Prop where
  mantissa_lt : m < 2 ^ 53
  exponent_le : -1074 ≤ e
  subnormal : m < 2 ^ 52 → e = -1074

/-- The parts of a double are in normal form. -/
theorem normal_ofDouble {x : Float} {negative : Bool} {m : Nat} {e : Int} (h : ofDouble x = .finite negative m e) :
    Normal m e := by
  simp only [ofDouble] at h
  have hpow : pow2 52 = 2 ^ 52 := rfl
  have hfraction : x.toBits.toNat % pow2 52 < pow2 52 := Nat.mod_lt _ (pow2_pos 52)
  split at h
  · split at h <;> cases h
  · split at h
    · cases h
      exact ⟨by omega, Int.le_refl _, fun _ => rfl⟩
    · cases h
      exact ⟨by omega, by omega, by omega⟩

end VesselTraffic.DoubleParts
