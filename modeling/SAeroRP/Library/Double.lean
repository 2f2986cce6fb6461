import Mathlib

/-! Doubles of the language. A quotient of doubles is an ordinary number if the dividend is
one and the divisor is infinite, or ordinary, not 0 and not too small; a change of the sign
keeps an ordinary number ordinary. -/

namespace SAeroRP.Library.Double

open Float.Model Float.Model.UnpackedFloat

/-! ### Stored results -/

/-- What is read back of a result that is stored as a double. -/
abbrev stored (u : UnpackedFloat) : UnpackedFloat :=
  UnpackedFloat.unpack Format.binary64 (UnpackedFloat.pack Format.binary64 u)

theorem stored_infinity (s : Sign) : stored (.infinity s) = .infinity s := by cases s <;> rfl

theorem stored_zero (s : Sign) : stored (.zero s) = .zero s := by cases s <;> rfl

theorem stored_notANumber : stored .notANumber = .notANumber := rfl

/-- The exponent bits of infinities and of what is not a number are ones. -/
theorem isFinite_unpack {b : BitVec Format.binary64.numBits}
    (h : @unpackExponent Format.binary64 b ≠ -1#_) :
    (UnpackedFloat.unpack Format.binary64 b).isFinite = true := by
  unfold UnpackedFloat.unpack
  dsimp only
  rw [if_neg h]
  split_ifs <;> rfl

section
variable (s : Sign) (m : ℕ) (e : ℤ) (h : 0 < m)

theorem isFinite_stored (he : e ≤ 971) : (stored (.finite s m e h)).isFinite = true := by
  have hbias : ((Format.binary64.exponentBias : ℕ) : ℤ) = 1023 := rfl
  have hbits : ((Format.binary64.mantissaBitsWithoutImplicit : ℕ) : ℤ) = 52 := rfl
  have hones : 2 ^ Format.binary64.exponentBits = 2048 := rfl
  apply isFinite_unpack
  simp only [UnpackedFloat.pack]
  rw [if_neg (by omega)]
  split_ifs
  · rw [unpackExponent_packComponents]
    intro heq
    have hvalue := congrArg BitVec.toNat heq
    simp only [BitVec.toNat_ofNat] at hvalue
    change _ = 2047 at hvalue
    omega
  · rw [unpackExponent_packComponents]
    decide

/-- A result is stored as an ordinary number, or it is too large. -/
theorem isFinite_stored_finite :
    (stored (.finite s m e h)).isFinite = !(stored (.finite s m e h)).isInf := by
  have hbias : ((Format.binary64.exponentBias : ℕ) : ℤ) = 1023 := rfl
  have hbits : ((Format.binary64.mantissaBitsWithoutImplicit : ℕ) : ℤ) = 52 := rfl
  have hones : 2 ^ Format.binary64.exponentBits = 2048 := rfl
  by_cases he : e ≤ 971
  · have hfinite := isFinite_stored s m e h he
    cases hu : stored (.finite s m e h) <;> rw [hu] at hfinite <;> first | rfl | cases hfinite
  · have hpack : UnpackedFloat.pack Format.binary64 (.finite s m e h) =
        UnpackedFloat.pack Format.binary64 (.infinity s) := by
      simp only [UnpackedFloat.pack]
      rw [if_pos (by omega)]
    have hinf : stored (.finite s m e h) = .infinity s := by
      rw [stored, hpack]
      exact stored_infinity s
    rw [hinf]
    rfl

theorem isFinite_stored_round (accuracy : Accuracy) :
    (stored (roundWithAccuracy Format.binary64 s m e accuracy)).isFinite =
      !(stored (roundWithAccuracy Format.binary64 s m e accuracy)).isInf := by
  unfold roundWithAccuracy
  dsimp only
  split_ifs
  · rw [stored_zero]
    rfl
  · exact isFinite_stored_finite _ _ _ _

end

/-! ### Quotients -/

/-- The quotient of two ordinary numbers is ordinary unless the divisor is 0 or the quotient
is too large. -/
theorem isFinite_div_iff (a b : Float) : (a / b).isFinite = true ↔ a.isFinite = true ∧
    (b.isInf = true ∨ b.isFinite = true ∧ (b == 0) = false ∧ (a / b).isInf = false) := by
  let u := a.toModel.unpack
  let v := b.toModel.unpack
  have hiff : (stored (UnpackedFloat.div Format.binary64 u v)).isFinite = true ↔
      u.isFinite = true ∧ (v.isInf = true ∨ v.isFinite = true ∧
        UnpackedFloat.beq v (.zero .positive) = false ∧
          (stored (UnpackedFloat.div Format.binary64 u v)).isInf = false) := by
    cases u with
    | notANumber => cases v <;> simp [UnpackedFloat.div, UnpackedFloat.isFinite, stored_notANumber]
    | infinity s =>
      cases v <;>
        simp [UnpackedFloat.div, UnpackedFloat.isFinite, stored_notANumber, stored_infinity]
    | zero s =>
      cases v with
      | notANumber =>
        simp [UnpackedFloat.div, UnpackedFloat.isFinite, UnpackedFloat.isInf, stored_notANumber]
      | infinity s' =>
        simp [UnpackedFloat.div, UnpackedFloat.isFinite, UnpackedFloat.isInf, stored_zero]
      | zero s' =>
        simp [UnpackedFloat.div, UnpackedFloat.isFinite, UnpackedFloat.isInf, stored_notANumber,
          UnpackedFloat.beq, UnpackedFloat.compare]
      | finite s' m' e' h' =>
        cases s' <;> simp [UnpackedFloat.div, UnpackedFloat.isFinite, UnpackedFloat.isInf,
          stored_zero, UnpackedFloat.beq, UnpackedFloat.compare]
    | finite s m e h =>
      cases v with
      | notANumber =>
        simp [UnpackedFloat.div, UnpackedFloat.isFinite, UnpackedFloat.isInf, stored_notANumber]
      | infinity s' =>
        simp [UnpackedFloat.div, UnpackedFloat.isFinite, UnpackedFloat.isInf, stored_zero]
      | zero s' =>
        simp [UnpackedFloat.div, UnpackedFloat.isFinite, UnpackedFloat.isInf, stored_infinity,
          UnpackedFloat.beq, UnpackedFloat.compare]
      | finite s' m' e' h' =>
        have hne : UnpackedFloat.beq (.finite s' m' e' h') (.zero .positive) = false := by
          cases s' <;> rfl
        rw [UnpackedFloat.div, isFinite_stored_round, hne]
        simp [UnpackedFloat.isFinite, UnpackedFloat.isInf]
  exact hiff

/-- An infinite divisor is not 0. -/
theorem beq_zero_of_isInf {b : Float} (h : b.isInf = true) : (b == 0) = false := by
  have hne : ∀ u : UnpackedFloat, u.isInf = true → UnpackedFloat.beq u (.zero .positive) = false := by
    intro u hu
    cases u with
    | infinity s => cases s <;> rfl
    | _ => cases hu
  exact hne b.toModel.unpack h

/-! ### Changes of sign -/

theorem log2_of_lt {n k : ℕ} (h : n < 2 ^ k) : (2 ^ k + n).log2 = k := by
  have hpos : 0 < 2 ^ k := by positivity
  have hupper : (2 ^ k + n).log2 < k + 1 :=
    (Nat.log2_lt (by omega)).mpr (by rw [pow_succ]; omega)
  have hlower : k ≤ (2 ^ k + n).log2 := (Nat.le_log2 (by omega)).mpr (by omega)
  omega

/-- A double is in canonical form: no other exponent keeps more bits of it. -/
theorem canonical_unpack {b : BitVec Format.binary64.numBits} {s : Sign} {m : ℕ} {e : ℤ}
    {h : 0 < m} (hb : UnpackedFloat.unpack Format.binary64 b = .finite s m e h) :
    Format.binary64.targetExponent (totalExponent m e) = e ∧ e ≤ 971 := by
  have hbias : ((Format.binary64.exponentBias : ℕ) : ℤ) = 1023 := rfl
  have hbits : ((Format.binary64.mantissaBitsWithoutImplicit : ℕ) : ℤ) = 52 := rfl
  have htarget : ∀ t : ℤ, Format.binary64.targetExponent t = max (t - 53) (-1074) := fun _ => rfl
  unfold UnpackedFloat.unpack at hb
  dsimp only at hb
  rw [htarget, totalExponent]
  have hlt : (@unpackMantissa Format.binary64 b).toNat < 2 ^ 52 := (unpackMantissa b).isLt
  have hexp : (@unpackExponent Format.binary64 b).toNat < 2 ^ 11 := (unpackExponent b).isLt
  split_ifs at hb with hones hnone hsub hnil
  · -- a subnormal number has the least exponent, and less than 53 bits
    cases hb
    have hlog : (@unpackMantissa Format.binary64 b).toNat.log2 < 52 :=
      (Nat.log2_lt (by omega)).mpr hlt
    have hzero : (@unpackExponent Format.binary64 b).toNat = 0 := by
      rw [hsub]
      rfl
    omega
  · -- a normal number has exactly 53 bits
    cases hb
    have hne : (@unpackExponent Format.binary64 b).toNat ≠ 0 :=
      fun h0 => hsub (BitVec.toNat_inj.mp (by simpa using h0))
    have hne' : (@unpackExponent Format.binary64 b).toNat ≠ 2047 :=
      fun h0 => hones (BitVec.toNat_inj.mp (by simpa using h0))
    have hvalue : (1#1 ++ @unpackMantissa Format.binary64 b).toNat =
        2 ^ 52 + (@unpackMantissa Format.binary64 b).toNat := by
      rw [BitVec.toNat_append, ← Nat.shiftLeft_add_eq_or_of_lt (unpackMantissa b).isLt]
      rfl
    rw [hvalue, log2_of_lt hlt]
    omega

/-- Bits that are zeros are shifted out without a trace. -/
theorem shift_pow_mul (m : ℕ) : ∀ k : ℕ,
    (⟨2 ^ k * m, false, false⟩ : ExtendedMantissa) >>> k = ⟨m, false, false⟩
  | 0 => by simp [HShiftRight.hShiftRight, Nat.repeat]
  | k + 1 => by
    have ih := shift_pow_mul (2 * m) k
    have hshift : (⟨2 ^ (k + 1) * m, false, false⟩ : ExtendedMantissa) >>> (k + 1) =
        ((⟨2 ^ k * (2 * m), false, false⟩ : ExtendedMantissa) >>> k).shiftRightOne := by
      rw [pow_succ, mul_assoc]
      rfl
    rw [hshift, ih, ExtendedMantissa.shiftRightOne]
    simp

theorem log2_pow_mul (m k : ℕ) (h : 0 < m) : (2 ^ k * m).log2 = m.log2 + k := by
  induction k with
  | zero => simp
  | succ k ih =>
    rw [pow_succ, mul_comm (2 ^ k), mul_assoc, Nat.log2_two_mul (by positivity), ih]
    rfl

/-- A number in canonical form is rounded to itself, with however many zeros it is given. -/
theorem round_pow_mul (s : Sign) (m : ℕ) (e : ℤ) (h : 0 < m) (k : ℕ)
    (he : Format.binary64.targetExponent (totalExponent m e) = e) :
    roundWithAccuracy Format.binary64 s (2 ^ k * m) (-k + e) .exact = .finite s m e h := by
  have htotal : totalExponent (2 ^ k * m) (-k + e) = totalExponent m e := by
    rw [totalExponent, totalExponent, log2_pow_mul m k h]
    push_cast
    ring
  have hfirst : shiftToTargetExponent Format.binary64 (2 ^ k * m) (-k + e) .exact =
      (⟨m, false, false⟩, e) := by
    have hk : (e - (-k + e)).toNat = k := by omega
    rw [shiftToTargetExponent, htotal, he, shiftToExponent, hk,
      ExtendedMantissa.ofMantissaAndAccuracy, shift_pow_mul]
    simp
  have hsecond : shiftToTargetExponent Format.binary64 m e .exact = (⟨m, false, false⟩, e) := by
    rw [shiftToTargetExponent, he, shiftToExponent]
    simp [ExtendedMantissa.ofMantissaAndAccuracy, HShiftRight.hShiftRight, Nat.repeat]
  have hrounded : (⟨m, false, false⟩ : ExtendedMantissa).roundedMantissa = m := rfl
  unfold roundWithAccuracy
  rw [hfirst]
  dsimp only
  rw [hrounded, hsecond]
  dsimp only
  rw [dif_neg h.ne']

theorem unpack_neg_one :
    (-1 : Float).toModel.unpack = .finite .negative (2 ^ 52) (-52) (by decide) := by rfl

theorem isFinite_neg_one_mul (a : Float) : (-1 * a).isFinite = a.isFinite := by
  have hmul : (-1 * a).isFinite = (stored (UnpackedFloat.mul Format.binary64
      (-1 : Float).toModel.unpack a.toModel.unpack)).isFinite := rfl
  have ha : a.isFinite = a.toModel.unpack.isFinite := rfl
  rw [hmul, ha, unpack_neg_one]
  cases hu : a.toModel.unpack with
  | notANumber => rfl
  | infinity s =>
    show (stored (.infinity (Sign.negative * s))).isFinite = _
    rw [stored_infinity]
    rfl
  | zero s =>
    show (stored (.zero (Sign.negative * s))).isFinite = _
    rw [stored_zero]
    rfl
  | finite s m e h =>
    obtain ⟨htarget, hle⟩ := canonical_unpack hu
    have hproduct : UnpackedFloat.mul Format.binary64
        (.finite .negative (2 ^ 52) (-52) (by decide)) (.finite s m e h) =
        .finite (Sign.negative * s) m e h := round_pow_mul (Sign.negative * s) m e h 52 htarget
    rw [hproduct]
    exact isFinite_stored _ m e h hle

end SAeroRP.Library.Double
