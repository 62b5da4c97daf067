import AnswerGrading.Proofs.FloatRounding

/-!
Positive finite numbers. The quotient of two counts is one of them, or zero where no points were
earned, and the product with one of them is a NaN only where the other factor is.
-/

namespace AnswerGrading.FloatBits

open Float.Model (Format UnpackedFloat)
open Float.Model.UnpackedFloat

def Positive (x : Float) : Prop :=
  ∃ m e h, x.toModel.unpack = .finite .positive m e h

theorem positive_one : Positive 1.0 :=
  ⟨_, _, _, rfl⟩

theorem Positive.zero_lt {x : Float} (h : Positive x) : 0.0 < x := by
  obtain ⟨m, e, hm, hx⟩ := h
  rw [lt_iff_compare, hx]
  rfl

theorem Positive.isNaN {x : Float} (h : Positive x) : x.isNaN = false :=
  (isNaN_of_lt h.zero_lt).2

theorem isNaN_of_zero_or_positive {x : Float} (h : x = 0.0 ∨ Positive x) : x.isNaN = false := by
  rcases h with rfl | hpos
  · rfl
  · exact hpos.isNaN

theorem Positive.isNaN_mul {x : Float} (h : Positive x) (y : Float) :
    (x * y).isNaN = y.isNaN := by
  obtain ⟨m, e, hm, hx⟩ := h
  change (unpack Format.binary64 (pack Format.binary64
    (mul Format.binary64 x.toModel.unpack y.toModel.unpack))).isNaN = y.toModel.unpack.isNaN
  rw [isNaN_unpack_pack, hx]
  cases y.toModel.unpack with
  | notANumber => rfl
  | infinity s => rfl
  | zero s => rfl
  | finite s n d hn => exact isNaN_roundWithAccuracy _ _ _ _ _

theorem div_positive {m₁ m₂ : Nat} {e₁ e₂ : Int} (hm₁ : 0 < m₁) (hm₂ : 0 < m₂) (h₁ : m₁.log2 = 52)
    (h₂ : m₂.log2 = 52) (hlow : -900 ≤ e₁ - e₂) (hhigh : e₁ - e₂ ≤ 900) :
    ∃ m e hm, unpack Format.binary64 (pack Format.binary64 (div Format.binary64
      (.finite .positive m₁ e₁ hm₁) (.finite .positive m₂ e₂ hm₂))) = .finite .positive m e hm := by
  have hb₁ := (Nat.log2_eq_iff hm₁.ne').1 h₁
  have hb₂ := (Nat.log2_eq_iff hm₂.ne').1 h₂
  have hlarge : 2 ^ 52 ≤ m₁ * 2 ^ 53 / m₂ := (Nat.le_div_iff_mul_le hm₂).2 (by omega)
  have hsmall : m₁ * 2 ^ 53 / m₂ < 2 ^ 54 := (Nat.div_lt_iff_lt_mul hm₂).2 (by omega)
  have hlog : (m₁ * 2 ^ 53 / m₂).log2 < 54 := (Nat.log2_lt (by omega)).2 hsmall
  have hround : div Format.binary64 (.finite .positive m₁ e₁ hm₁) (.finite .positive m₂ e₂ hm₂) =
      roundWithAccuracy Format.binary64 .positive (m₁ * 2 ^ 53 / m₂) (e₁ - e₂ - 53)
        (accuracyOfFraction (m₁ * 2 ^ 53 % m₂) m₂) := by
    rw [div, divCore_eq h₁ h₂ (by omega)]
    rfl
  rw [hround]
  have hnormal := roundWithAccuracy_normal .positive
    (accuracyOfFraction (m₁ * 2 ^ 53 % m₂) m₂) hlarge (e := e₁ - e₂ - 53) (by omega)
  rw [hnormal.unpack_pack (by omega) (by omega)]
  obtain ⟨m, e, hm, hu, -⟩ := hnormal.of_signed (signed_roundWithAccuracy _ _ _ _ _)
  exact ⟨m, e, hm, hu⟩

theorem positive_ofNat_div {k n : Nat} (hk : 0 < k) (hn : 0 < n) (hk' : k.log2 < 64)
    (hn' : n.log2 < 64) : Positive (Float.ofNat k / Float.ofNat n) := by
  obtain ⟨m₁, e₁, hm₁, hu₁, h₁, hle₁, hge₁⟩ := unpack_ofNat_positive hk (by omega)
  obtain ⟨m₂, e₂, hm₂, hu₂, h₂, hle₂, hge₂⟩ := unpack_ofNat_positive hn (by omega)
  change ∃ m e hm, unpack Format.binary64 (pack Format.binary64
    (div Format.binary64 (Float.ofNat k).toModel.unpack (Float.ofNat n).toModel.unpack)) = _
  rw [hu₁, hu₂]
  exact div_positive hm₁ hm₂ h₁ h₂ (by omega) (by omega)

theorem zero_ofNat_div {n : Nat} (hn : 0 < n) (hn' : n.log2 < 900) :
    Float.ofNat 0 / Float.ofNat n = 0.0 := by
  obtain ⟨m, e, hm, hu, -⟩ := unpack_ofNat_positive hn hn'
  have hquotient : (Float.ofNat 0 / Float.ofNat n).toModel = Float.Model.pack
      (div Format.binary64 (Float.ofNat 0).toModel.unpack (Float.ofNat n).toModel.unpack) := rfl
  have hzero : (0.0 : Float).toModel = Float.Model.pack (.zero .positive) := rfl
  rw [hu] at hquotient
  exact congrArg Float.ofModel (hquotient.trans hzero.symm)

end AnswerGrading.FloatBits
