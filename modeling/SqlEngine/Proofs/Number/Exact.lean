import Mathlib.Tactic.Ring
import SqlEngine.Proofs.Number.Bits

/-!
# Whole numbers as doubles

A whole number of at most 53 bits is a double: shifted until its leading bit stands where doubles
have theirs, it is rounded by no operation on its way, and its exact value is read off the bits.
So different ones stay different when they are kept as doubles. Nothing is said of longer numbers,
which are rounded.
-/
namespace SqlEngine.Number

open Float.Model Float.Model.UnpackedFloat

theorem log2_mul_two_pow {m : Nat} (hm : m ≠ 0) (k : Nat) : (m * 2 ^ k).log2 = m.log2 + k := by
  induction k with
  | zero => simp
  | succ k ih =>
    have hpos : m * 2 ^ k ≠ 0 := Nat.mul_ne_zero hm (Nat.pow_pos (by decide)).ne'
    have hdouble : m * 2 ^ (k + 1) = 2 * (m * 2 ^ k) := by ring
    rw [hdouble, Nat.log2_two_mul hpos, ih, Nat.add_assoc]

/-- Shifting out zeros loses nothing. -/
theorem shift_zeros (m k : Nat) :
    (⟨m * 2 ^ k, false, false⟩ : ExtendedMantissa) >>> k = ⟨m, false, false⟩ := by
  change k.repeat ExtendedMantissa.shiftRightOne _ = _
  induction k generalizing m with
  | zero => simp [Nat.repeat]
  | succ k ih =>
    have hdouble : m * 2 ^ (k + 1) = 2 * m * 2 ^ k := by ring
    rw [Nat.repeat, hdouble, ih]
    simp [ExtendedMantissa.shiftRightOne]

/-- The least exponent is -1074, and a significand has 53 bits. -/
theorem targetExponent_binary64 (e : Int) :
    Format.binary64.targetExponent e = max (e - 53) (-1074) := rfl

/-- A significand with its leading bit `k` places too far to the left is shifted by `k` places. -/
theorem targetExponent_eq {m : Nat} {e : Int} {k : Nat} (hm : m.log2 = 52 + k) (he : -1074 ≤ e) :
    Format.binary64.targetExponent (totalExponent m (e - k)) = e := by
  rw [targetExponent_binary64, totalExponent, hm]
  omega

/-- A value that is a double is not rounded. -/
theorem round_exact {m : Nat} (hm : m.log2 = 52) {e : Int} (he : -1074 ≤ e) (k : Nat)
    (hpos : 0 < m) :
    roundWithAccuracy Format.binary64 .positive (m * 2 ^ k) (e - k) .exact =
      .finite .positive m e hpos := by
  have hlog : (m * 2 ^ k).log2 = 52 + k := by rw [log2_mul_two_pow hpos.ne', hm]
  have hfirst : shiftToTargetExponent Format.binary64 (m * 2 ^ k) (e - k) .exact =
      (⟨m, false, false⟩, e) := by
    have hamount : (e - (e - k)).toNat = k := by omega
    rw [shiftToTargetExponent, targetExponent_eq hlog he, shiftToExponent, hamount]
    exact Prod.ext (shift_zeros m k) (by simp)
  have hsecond : shiftToTargetExponent Format.binary64 m e .exact = (⟨m, false, false⟩, e) := by
    have htarget : Format.binary64.targetExponent (totalExponent m e) = e := by
      simpa using targetExponent_eq (k := 0) hm he
    have hamount : (e - e).toNat = 0 := by omega
    rw [shiftToTargetExponent, htarget, shiftToExponent, hamount]
    exact Prod.ext rfl (by simp)
  have hrounded : (⟨m, false, false⟩ : ExtendedMantissa).roundedMantissa = m := rfl
  rw [roundWithAccuracy, hfirst]
  dsimp only
  rw [hrounded, hsecond]
  exact dif_neg hpos.ne'

section Normal

variable {m : Nat} {e : Int} (hm : m.log2 = 52) (he : -1074 ≤ e) (he' : e ≤ 971) (hpos : 0 < m)
include hm he he'

/-- A double with a leading bit is its exponent and what follows the leading bit. -/
theorem pack_eq :
    UnpackedFloat.pack Format.binary64 (.finite .positive m e hpos) =
      packComponents Format.binary64 .positive (BitVec.ofNat 11 (e + 1075).toNat)
        (BitVec.ofNat 52 m) := by
  have hleading : m.log2 + 1 = Format.binary64.mantissaBits := congrArg (· + 1) hm
  have hfits : ¬2 ^ 11 ≤ (e + 1023 + 52).toNat + 1 := by omega
  have hbias : e + 1023 + 52 = e + 1075 := by omega
  rw [← hbias]
  exact (if_neg hfits).trans (if_pos hleading)

omit he he' in
theorem significand_bounds : 2 ^ 52 ≤ m ∧ m < 2 ^ 53 := by
  have hne : m ≠ 0 := by
    rintro rfl
    simp at hm
  have hhigh := Nat.lt_log2_self (n := m)
  rw [hm] at hhigh
  exact ⟨hm ▸ Nat.log2_self_le hne, hhigh⟩

/-- The bits of a double with a leading bit, as a number. -/
theorem toNat_pack :
    (UnpackedFloat.pack Format.binary64 (.finite .positive m e hpos)).toNat =
      (e + 1075).toNat * 2 ^ 52 + (m - 2 ^ 52) := by
  obtain ⟨hlow, hhigh⟩ := significand_bounds hm
  have hfraction : m % 2 ^ 52 = m - 2 ^ 52 := by omega
  have hfield : (e + 1075).toNat % 2 ^ 11 = (e + 1075).toNat := Nat.mod_eq_of_lt (by omega)
  rw [pack_eq hm he he' hpos, packComponents, BitVec.toNat_append, BitVec.toNat_append,
    BitVec.toNat_ofNat, BitVec.toNat_ofNat, hfraction, hfield]
  have hsign : (Sign.positive).toBitVec.toNat = 0 := rfl
  rw [hsign, Nat.zero_shiftLeft, Nat.zero_or, ← Nat.shiftLeft_add_eq_or_of_lt (by omega),
    Nat.shiftLeft_eq]

/-- Packing keeps a double with a leading bit. -/
theorem unpack_pack :
    (Float.Model.pack (.finite .positive m e hpos)).unpack = .finite .positive m e hpos := by
  obtain ⟨hlow, hhigh⟩ := significand_bounds hm
  have hbits := toNat_pack hm he he' hpos
  change UnpackedFloat.unpack Format.binary64
    (UnpackedFloat.pack Format.binary64 (.finite .positive m e hpos)) = _
  generalize UnpackedFloat.pack Format.binary64 (.finite .positive m e hpos) = b at hbits ⊢
  have hfield : (unpackExponent b).toNat = (e + 1075).toNat := by
    rw [toNat_unpackExponent, hbits]
    omega
  have hfinite : unpackExponent b ≠ -1#11 := by
    intro h
    have hcode : (unpackExponent b).toNat = 2047 := congrArg BitVec.toNat h
    omega
  have hnormal : unpackExponent b ≠ 0#11 := by
    intro h
    have hcode : (unpackExponent b).toNat = 0 := congrArg BitVec.toNat h
    omega
  have hsign : unpackSign b = 0#1 := by
    apply BitVec.eq_of_toNat_eq
    rw [toNat_unpackSign, hbits]
    change _ = 0
    omega
  have hsignificand : (1#1 ++ unpackMantissa b).toNat = m := by
    rw [toNat_significand, hbits]
    omega
  have hexponent : ((unpackExponent b).toNat : Int) - 1075 = e := by omega
  rw [unpack_of_normal hfinite hnormal (by omega), UnpackedFloat.finite.injEq, hsign]
  exact ⟨rfl, hsignificand, hexponent⟩

/-- The exact value of a double with a leading bit. -/
theorem ofFloat_pack :
    Binary.ofFloat (.ofModel (Float.Model.pack (.finite .positive m e hpos))) = ⟨false, m, e⟩ := by
  obtain ⟨hlow, hhigh⟩ := significand_bounds hm
  have hbits : (Float.ofModel (Float.Model.pack (.finite .positive m e hpos))).toBits.toNat =
      (e + 1075).toNat * 2 ^ 52 + (m - 2 ^ 52) := toNat_pack hm he he' hpos
  have hleading : leadingBit = 2 ^ 52 := rfl
  have hfield : Nat.pow 2 11 = 2 ^ 11 := rfl
  have hsign : Nat.pow 2 63 = 2 ^ 63 := rfl
  rw [Binary.ofFloat, Binary.ofBits, hbits, hleading, hfield, hsign]
  have hcode : ((e + 1075).toNat * 2 ^ 52 + (m - 2 ^ 52)) / 2 ^ 52 % 2 ^ 11 = (e + 1075).toNat := by
    omega
  have hfraction : ((e + 1075).toNat * 2 ^ 52 + (m - 2 ^ 52)) % 2 ^ 52 = m - 2 ^ 52 := by omega
  have hpositive : ((e + 1075).toNat * 2 ^ 52 + (m - 2 ^ 52)) / 2 ^ 63 = 0 := by omega
  have hexponent : leastExponent + ((e + 1075).toNat - 1 : Nat) = e := by
    rw [leastExponent]
    omega
  rw [hcode, hfraction, hpositive, if_neg (by omega), hexponent, Nat.add_sub_cancel' hlow]
  rfl

end Normal

/-- The double that a whole number is multiplied by is one. -/
theorem one_unpack : (Float.Model.ofBits 0x3FF0000000000000).unpack =
    .finite .positive (2 ^ 52) (-52) (by decide) := rfl

section Whole

variable {n : Nat} (hpos : 0 < n) (hn : n < 2 ^ 53)
include hpos hn

theorem log2_le : n.log2 ≤ 52 := by
  have := (Nat.log2_lt hpos.ne').2 hn
  omega

theorem log2_scaled : (n * 2 ^ (52 - n.log2)).log2 = 52 := by
  have := log2_le hpos hn
  rw [log2_mul_two_pow hpos.ne']
  omega

/-- A whole number of up to 53 bits is a significand and an exponent of a double. -/
theorem ofNat_unpacked (hm : 0 < n * 2 ^ (52 - n.log2)) :
    UnpackedFloat.ofNat Format.binary64 n =
      .finite .positive (n * 2 ^ (52 - n.log2)) (-(52 - n.log2 : Nat)) hm := by
  have hle := log2_le hpos hn
  have hsign : compare (n : Int) 0 = .gt := Int.compare_eq_gt.2 (by omega)
  have htarget : Format.binary64.targetExponent (totalExponent n 0) = -(52 - n.log2 : Nat) := by
    rw [targetExponent_binary64, totalExponent]
    omega
  have hamount : (0 - -((52 - n.log2 : Nat) : Int)).toNat = 52 - n.log2 := by omega
  have hexponent : -((52 - n.log2 : Nat) : Int) - (0 : Nat) = 0 - (52 - n.log2 : Nat) := by omega
  have hround := round_exact (log2_scaled hpos hn) (e := -(52 - n.log2 : Nat)) (by omega) 0 hm
  rw [Nat.pow_zero, Nat.mul_one, hexponent] at hround
  rw [UnpackedFloat.ofNat, UnpackedFloat.ofInt, UnpackedFloat.normalize, hsign]
  dsimp only
  rw [UnpackedFloat.round, Int.toNat_natCast, htarget, decreaseExponent, hamount,
    Nat.shiftLeft_eq]
  exact hround

/-- A whole number of up to 53 bits is a double. -/
theorem ofNat_eq (hm : 0 < n * 2 ^ (52 - n.log2)) :
    Float.ofNat n = .ofModel (Float.Model.pack
      (.finite .positive (n * 2 ^ (52 - n.log2)) (-(52 - n.log2 : Nat)) hm)) := by
  have hle := log2_le hpos hn
  have hlog := log2_scaled hpos hn
  have hbits : n.toUInt64.toNat = n := by
    simp
    omega
  have hscientific : Float.ofNat n = n.toUInt64.toFloat * Float.ofBits 0x3FF0000000000000 := by
    rw [Float.ofNat]
    exact dif_pos ⟨hn, by decide⟩
  have hproduct := round_exact hlog (e := -(52 - n.log2 : Nat)) (by omega) 52 hm
  have hfactor : n.toUInt64.toFloat.toModel.unpack =
      .finite .positive (n * 2 ^ (52 - n.log2)) (-(52 - n.log2 : Nat)) hm := by
    rw [← unpack_pack hlog (by omega) (by omega) hm, ← ofNat_unpacked hpos hn hm]
    change (Float.Model.pack (UnpackedFloat.ofNat Format.binary64 n.toUInt64.toNat)).unpack = _
    rw [hbits]
  rw [hscientific]
  change Float.ofModel (Float.Model.pack (UnpackedFloat.mul Format.binary64
    n.toUInt64.toFloat.toModel.unpack (Float.Model.ofBits 0x3FF0000000000000).unpack)) = _
  rw [hfactor, one_unpack]
  exact congrArg (fun x => Float.ofModel (Float.Model.pack x)) hproduct

/-- The exact value of the double of a whole number is that number. -/
theorem ofFloat_ofNat :
    Binary.ofFloat (Float.ofNat n) =
      ⟨false, n * 2 ^ (52 - n.log2), -(52 - n.log2 : Nat)⟩ := by
  have hle := log2_le hpos hn
  have hm : 0 < n * 2 ^ (52 - n.log2) := Nat.mul_pos hpos (Nat.pow_pos (by decide))
  rw [ofNat_eq hpos hn hm]
  exact ofFloat_pack (log2_scaled hpos hn) (by omega) (by omega) hm

end Whole

/-- A significand that is shifted back is a whole number. -/
theorem exact_scaled (n k : Nat) :
    (⟨false, n * 2 ^ k, -(k : Int)⟩ : Binary).isWhole = true ∧
      (⟨false, n * 2 ^ k, -(k : Int)⟩ : Binary).truncate = n := by
  rcases Nat.eq_zero_or_pos k with rfl | hk
  · simp [Binary.isWhole, Binary.truncate, Binary.wholePart]
  · have hdiv : n * 2 ^ k / 2 ^ k = n := Nat.mul_div_cancel _ (Nat.pow_pos (by decide))
    simp [Binary.isWhole, Binary.truncate, Binary.wholePart, hk.ne', hdiv]

/-- A whole number of at most 53 bits is read back from its double. -/
theorem exact_ofNat {n : Nat} (hn : n < 2 ^ 53) :
    (Binary.ofFloat (Float.ofNat n)).isWhole = true ∧
      (Binary.ofFloat (Float.ofNat n)).truncate = n := by
  rcases Nat.eq_zero_or_pos n with rfl | hpos
  · decide +kernel
  · rw [ofFloat_ofNat hpos hn]
    exact exact_scaled n _

end SqlEngine.Number

/-- Counts of at most 53 bits are told apart by their values. -/
theorem SqlEngine.Value.ofNat_inj {n k : Nat} (hn : n < 2 ^ 53) (hk : k < 2 ^ 53) :
    Value.ofNat n = Value.ofNat k ↔ n = k := by
  refine ⟨fun h => ?_, congrArg Value.ofNat⟩
  have hfloat : Float.ofNat n = Float.ofNat k := by injection h
  have hvalue := (Number.exact_ofNat hn).2
  rw [hfloat, (Number.exact_ofNat hk).2] at hvalue
  exact (Int.ofNat_inj.1 hvalue).symm
