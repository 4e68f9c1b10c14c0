import Mathlib
import Wideband.Sample.Complex32

namespace Wideband.Single

open Float.Model (UnpackedFloat totalExponent)
open Float.Model.Format (binary32)
open Float.Model.UnpackedFloat (roundWithAccuracy shiftToTargetExponent divCore ExtendedMantissa)

/-- A finite number whose exponent is the one that a format keeps it with. -/
def Canonical (spec : Float.Model.Format) : UnpackedFloat → Prop
  | .finite _ mantissa exponent _ =>
      spec.targetExponent (totalExponent mantissa exponent) = exponent
  | _ => True

theorem canonical_unpack (word : BitVec binary32.numBits) :
    Canonical binary32 (UnpackedFloat.unpack binary32 word) := by
  have fraction : (UnpackedFloat.unpackMantissa word).toNat < 2 ^ 23 :=
    (UnpackedFloat.unpackMantissa word).isLt
  fun_cases UnpackedFloat.unpack with
  | case4 mantissa biased exponent sign s notLarge small some =>
      -- Numbers below the normal ones all have the lowest exponent.
      have few : mantissa.toNat.log2 < 23 := by
        refine (Nat.log2_lt ?_).mpr fraction
        exact fun none => some (BitVec.eq_of_toNat_eq (by simpa using none))
      have lowest : biased.toNat = 0 := by rw [small]; rfl
      simp only [Canonical, Float.Model.Format.targetExponent, totalExponent,
        Float.Model.Format.minExponent, Float.Model.Format.mantissaBits, exponent,
        Float.Model.Format.exponentBias, lowest]
      omega
  | case5 mantissa biased exponent sign s notLarge large =>
      have above : biased.toNat ≠ 0 := fun none => large (BitVec.eq_of_toNat_eq (by simpa using none))
      have whole : (1#1 ++ mantissa).toNat.log2 = 23 := by
        have sum : (1#1 ++ mantissa).toNat = 2 ^ 23 + mantissa.toNat := by
          rw [BitVec.toNat_append, Nat.shiftLeft_eq]
          exact (Nat.two_pow_add_eq_or_of_lt fraction 1).symm
        have most : mantissa.toNat < 2 ^ 23 := fraction
        rw [sum, Nat.log2_eq_iff (by omega)]
        omega
      simp only [Canonical, Float.Model.Format.targetExponent, totalExponent,
        Float.Model.Format.minExponent, Float.Model.Format.mantissaBits, exponent,
        Float.Model.Format.exponentBias, whole]
      omega
  | _ => trivial

section Rounding

variable {spec : Float.Model.Format} {mantissa : ℕ} {exponent : ℤ}

theorem shift_none (fits : spec.targetExponent (totalExponent mantissa exponent) = exponent) :
    shiftToTargetExponent spec mantissa exponent .exact =
      (⟨mantissa, false, false⟩, exponent) := by
  simp only [shiftToTargetExponent, UnpackedFloat.shiftToExponent, fits, Int.sub_self]
  exact congrArg (Prod.mk _) (Int.add_zero exponent)

theorem totalExponent_double (some : 0 < mantissa) :
    totalExponent (2 * mantissa) (exponent - 1) = totalExponent mantissa exponent := by
  rw [totalExponent, totalExponent, Nat.log2_two_mul (Nat.ne_of_gt some)]
  omega

theorem shift_double (some : 0 < mantissa)
    (fits : spec.targetExponent (totalExponent mantissa exponent) = exponent) :
    shiftToTargetExponent spec (2 * mantissa) (exponent - 1) .exact =
      (⟨mantissa, false, false⟩, exponent) := by
  have once : (exponent - (exponent - 1)).toNat = 1 := by omega
  simp only [shiftToTargetExponent, UnpackedFloat.shiftToExponent, totalExponent_double some, fits,
    once]
  refine Prod.ext ?_ (by simp)
  change ExtendedMantissa.shiftRightOne ⟨2 * mantissa, false, false⟩ = _
  simp [ExtendedMantissa.shiftRightOne]

theorem round_shifted {sign : UnpackedFloat.Sign} {given : ℕ} {start : ℤ} (some : 0 < mantissa)
    (fits : spec.targetExponent (totalExponent mantissa exponent) = exponent)
    (shifted : shiftToTargetExponent spec given start .exact =
      (⟨mantissa, false, false⟩, exponent)) :
    roundWithAccuracy spec sign given start .exact = .finite sign mantissa exponent some := by
  have rounded : ExtendedMantissa.roundedMantissa ⟨mantissa, false, false⟩ = mantissa := rfl
  simp only [roundWithAccuracy, shifted, rounded, shift_none fits]
  rw [dif_neg (Nat.ne_of_gt some)]

end Rounding

/-- A number of 24 bits divided by one, before it is rounded: the quotient has one bit more unless the
exponent is the lowest. -/
theorem divCore_one {mantissa : ℕ} {exponent : ℤ}
    (fits : binary32.targetExponent (totalExponent mantissa exponent) = exponent) :
    divCore binary32 mantissa exponent (2 ^ 23) (-23) = (2 * mantissa, exponent - 1, .exact) ∨
      divCore binary32 mantissa exponent (2 ^ 23) (-23) = (mantissa, exponent, .exact) := by
  have one : totalExponent (2 ^ 23) (-23) = 1 := by
    rw [totalExponent, Nat.log2_two_pow]
    rfl
  have quotient (bits : ℕ) : (mantissa <<< (23 + bits)) / 2 ^ 23 = 2 ^ bits * mantissa ∧
      (mantissa <<< (23 + bits)) % 2 ^ 23 = 0 := by
    have whole : mantissa <<< (23 + bits) = 2 ^ 23 * (2 ^ bits * mantissa) := by
      rw [Nat.shiftLeft_eq, Nat.pow_add]
      ring
    rw [whole]
    exact ⟨Nat.mul_div_cancel_left _ (by decide), Nat.mul_mod_right _ _⟩
  have target : ∃ bits : ℕ, bits ≤ 1 ∧ min (exponent - -23) (binary32.targetExponent
      (totalExponent mantissa exponent - 1)) = exponent - bits := by
    simp only [Float.Model.Format.targetExponent, Float.Model.Format.mantissaBits,
      Float.Model.Format.minExponent] at fits ⊢
    generalize totalExponent mantissa exponent = total at fits
    by_cases lowest : exponent = -149
    · exact ⟨0, by omega, by omega⟩
    · exact ⟨1, by omega, by omega⟩
  obtain ⟨bits, few, target⟩ := target
  have shift : (exponent - -23 - (exponent - bits)).toNat = 23 + bits := by omega
  have exact : UnpackedFloat.accuracyOfFraction 0 (2 ^ 23) = .exact := rfl
  simp only [divCore, one, target, shift, quotient, exact]
  interval_cases bits
  · exact .inr (by simp)
  · exact .inl rfl

theorem unpacked_div_one {number : UnpackedFloat} (canonical : Canonical binary32 number) :
    UnpackedFloat.div binary32 number (.finite .positive (2 ^ 23) (-23) (by decide)) = number := by
  cases number with
  | infinity sign => cases sign <;> rfl
  | notANumber => rfl
  | zero sign => cases sign <;> rfl
  | finite sign mantissa exponent some =>
      have same : sign / .positive = sign := by cases sign <;> rfl
      rcases divCore_one canonical with double | single
      · simp only [UnpackedFloat.div, double, same]
        exact round_shifted some canonical (shift_double some canonical)
      · simp only [UnpackedFloat.div, single, same]
        exact round_shifted some canonical (shift_none canonical)

theorem unpack_one : (Float32.ofInt 1).toModel.unpack =
    .finite .positive (2 ^ 23) (-23) (by decide) := by
  rfl

theorem div_one (part : Float32) : part / Component.ofInt 1 = part := by
  have kept : Float32.ofModel (.pack part.toModel.unpack) = part := Float32.ofBits_toBits part
  have quotient := unpacked_div_one (canonical_unpack part.toModel.toBits.toBitVec)
  change Float32.ofModel (.pack (UnpackedFloat.div binary32 part.toModel.unpack
    (Float32.ofInt 1).toModel.unpack)) = part
  rw [unpack_one]
  exact (congrArg (fun number => Float32.ofModel (.pack number)) quotient).trans kept

end Wideband.Single
