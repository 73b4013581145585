import Mathlib.Algebra.Ring.Nat
import SqlEngine.Value.Order

/-!
# The bits of doubles

A double is kept as a sign, the field of its exponent and the field of its significand. What it is
unpacked to tells all three, since there is one not-a-number. So doubles that are unpacked to the
same are equal, and of doubles in one place of their order only the two zeros are not.
-/
namespace SqlEngine.Number

open Float.Model Float.Model.UnpackedFloat

section Fields

variable (b : BitVec Format.binary64.numBits)

theorem toNat_unpackMantissa :
    (unpackMantissa b).toNat = b.toNat % 2 ^ 52 := by
  simp [unpackMantissa]

theorem toNat_unpackExponent :
    (unpackExponent b).toNat = b.toNat / 2 ^ 52 % 2 ^ 11 := by
  simp [unpackExponent, Nat.shiftRight_eq_div_pow]

theorem toNat_unpackSign : (unpackSign b).toNat = b.toNat / 2 ^ 63 := by
  have hb : b.toNat < 2 ^ 64 := b.isLt
  have hbit : (unpackSign b).toNat = b.toNat >>> 63 % 2 := BitVec.extractLsb_toNat 63 63 b
  rw [hbit, Nat.shiftRight_eq_div_pow]
  omega

/-- The significand of a double whose leading bit is left out. -/
theorem toNat_significand : (1#1 ++ unpackMantissa b).toNat =
    2 ^ 52 + b.toNat % 2 ^ 52 := by
  rw [BitVec.toNat_append, ← Nat.shiftLeft_add_eq_or_of_lt (BitVec.isLt _), toNat_unpackMantissa]
  rfl

end Fields

theorem toNat_toBitVec_ofBitVec (v : BitVec 1) : (Sign.ofBitVec v).toBitVec.toNat = v.toNat := by
  decide +revert

/-- The bits of a double, as a number. -/
def bitsOf : UnpackedFloat → Nat
  | .infinity sign => sign.toBitVec.toNat * 2 ^ 63 + 2047 * 2 ^ 52
  | .notANumber => 2047 * 2 ^ 52 + 2 ^ 51
  | .zero sign => sign.toBitVec.toNat * 2 ^ 63
  | .finite sign m e _ => sign.toBitVec.toNat * 2 ^ 63 +
      if m < 2 ^ 52 then m else (e + 1075).toNat * 2 ^ 52 + (m - 2 ^ 52)

/-- A double is normal when the field of its exponent is neither full nor empty. -/
theorem unpack_of_normal {b : BitVec Format.binary64.numBits} (hones : unpackExponent b ≠ -1#11)
    (hzeros : unpackExponent b ≠ 0#11) (hpos : 0 < (1#1 ++ unpackMantissa b).toNat) :
    UnpackedFloat.unpack Format.binary64 b =
      .finite (Sign.ofBitVec (unpackSign b)) (1#1 ++ unpackMantissa b).toNat
        ((unpackExponent b).toNat - 1075) hpos :=
  (if_neg hones).trans (if_neg hzeros)

theorem toNat_eq_bitsOf {b : BitVec Format.binary64.numBits} (hvalid : Format.binary64.Valid b) :
    b.toNat = bitsOf (UnpackedFloat.unpack Format.binary64 b) := by
  have hb : b.toNat < 2 ^ 64 := b.isLt
  have hmantissa := toNat_unpackMantissa b
  have hexponent := toNat_unpackExponent b
  have hsign := (toNat_toBitVec_ofBitVec _).trans (toNat_unpackSign b)
  by_cases hones : unpackExponent b = -1#11
  · have hfield : (unpackExponent b).toNat = 2047 := congrArg BitVec.toNat hones
    by_cases hzero : unpackMantissa b = 0#52
    · have hfraction : (unpackMantissa b).toNat = 0 := congrArg BitVec.toNat hzero
      have hunpack : UnpackedFloat.unpack Format.binary64 b = .infinity _ :=
        (if_pos hones).trans (if_pos hzero)
      rw [hunpack]
      change _ = _ * 2 ^ 63 + 2047 * 2 ^ 52
      omega
    · rw [hvalid.eq_packedNaN hones hzero]
      rfl
  · by_cases hzeros : unpackExponent b = 0#11
    · have hfield : (unpackExponent b).toNat = 0 := congrArg BitVec.toNat hzeros
      by_cases hzero : unpackMantissa b = 0#52
      · have hfraction : (unpackMantissa b).toNat = 0 := congrArg BitVec.toNat hzero
        have hunpack : UnpackedFloat.unpack Format.binary64 b = .zero _ :=
          (if_neg hones).trans ((if_pos hzeros).trans (dif_pos hzero))
        rw [hunpack]
        change _ = _ * 2 ^ 63
        omega
      · have hunpack : UnpackedFloat.unpack Format.binary64 b =
            .finite _ (unpackMantissa b).toNat _ _ :=
          (if_neg hones).trans ((if_pos hzeros).trans (dif_neg hzero))
        rw [hunpack]
        change _ = _ * 2 ^ 63 + ite _ _ _
        rw [hmantissa, if_pos (by omega)]
        omega
    · have hsignificand := toNat_significand b
      have hpower : (((unpackExponent b).toNat : Int) - 1075 + 1075).toNat =
          b.toNat / 2 ^ 52 % 2 ^ 11 := by omega
      rw [unpack_of_normal hones hzeros (by omega)]
      change _ = _ * 2 ^ 63 + ite _ _ (_ * 2 ^ 52 + _)
      rw [hsignificand, if_neg (by omega), hpower]
      omega

theorem toBits_inj {x y : Float} : x.toBits = y.toBits ↔ x = y := by
  refine ⟨fun h => ?_, congrArg Float.toBits⟩
  obtain ⟨⟨bits, _⟩⟩ := x
  obtain ⟨⟨bits', _⟩⟩ := y
  obtain rfl : bits = bits' := h
  rfl

/-- Doubles that are unpacked to the same are equal. -/
theorem eq_of_unpack_eq {x y : Float} (h : x.toModel.unpack = y.toModel.unpack) : x = y := by
  apply toBits_inj.1
  apply UInt64.toNat_inj.1
  calc x.toModel.toBits.toNat
    _ = bitsOf x.toModel.unpack := toNat_eq_bitsOf x.toModel.valid
    _ = bitsOf y.toModel.unpack := congrArg bitsOf h
    _ = y.toModel.toBits.toNat := (toNat_eq_bitsOf y.toModel.valid).symm

end SqlEngine.Number
