import AnswerGrading.Proofs.FloatQuotient

/-!
Quotients of counts that are one. A mantissa that stands for at most a whole number is not rounded
beyond it, so that a count divided by a larger one stays below one.
-/

namespace AnswerGrading.FloatBits

open Float.Model (Format UnpackedFloat totalExponent)
open Float.Model.UnpackedFloat

/-- The mantissa with its two bits stands for at most `b`. -/
def AtMost (b : Nat) (em : ExtendedMantissa) : Prop :=
  em.mantissa < b ∨ em = ⟨b, false, false⟩

theorem atMost_exact (m : Nat) :
    AtMost m (ExtendedMantissa.ofMantissaAndAccuracy m .exact) :=
  .inr rfl

theorem atMost_fraction {num den b : Nat} (h : num ≤ b * den) (hden : 0 < den) :
    AtMost b (ExtendedMantissa.ofMantissaAndAccuracy (num / den)
      (accuracyOfFraction (num % den) den)) := by
  rcases h.lt_or_eq with hlt | rfl
  · left
    rw [mantissa_ofMantissaAndAccuracy]
    exact (Nat.div_lt_iff_lt_mul hden).2 hlt
  · right
    rw [Nat.mul_div_cancel b hden, Nat.mul_mod_left]
    rfl

theorem AtMost.shiftRightOne {b : Nat} {em : ExtendedMantissa} (h : AtMost (b * 2) em) :
    AtMost b em.shiftRightOne := by
  rcases h with h | rfl
  · left
    change em.mantissa / 2 < b
    omega
  · right
    simp [ExtendedMantissa.shiftRightOne]

theorem AtMost.shiftRight {b n : Nat} {em : ExtendedMantissa} (h : AtMost (b * 2 ^ n) em) :
    AtMost b (em >>> n) := by
  induction n generalizing b with
  | zero => simpa [HShiftRight.hShiftRight, Nat.repeat] using h
  | succ n ih =>
      have hb : b * 2 ^ (n + 1) = b * 2 * 2 ^ n := by rw [pow_succ']; ring
      rw [hb] at h
      exact (ih h).shiftRightOne

theorem AtMost.roundedMantissa_le {b : Nat} {em : ExtendedMantissa} (h : AtMost b em) :
    em.roundedMantissa ≤ b := by
  rcases h with h | rfl
  · exact (roundedMantissa_bounds em).2.trans h
  · exact Nat.le_refl b

theorem le_of_log2 {m j : Nat} (h : m.log2 = 52 + j) : 2 ^ 52 ≤ m := by
  have hne : m ≠ 0 := by
    rintro rfl
    rw [Nat.log2_zero] at h
    omega
  exact (Nat.le_log2 hne).1 (by omega)

theorem roundWithAccuracy_eq (s : Sign) {m b j : Nat} {e : Int} {accuracy : Accuracy}
    (hlog : m.log2 = 52 + j) (he : -1074 ≤ e)
    (h : AtMost (b * 2 ^ j) (ExtendedMantissa.ofMantissaAndAccuracy m accuracy))
    (hb : b < 2 ^ 53) :
    ∃ r hr, roundWithAccuracy Format.binary64 s m e accuracy = .finite s r (e + j) hr ∧
      r.log2 = 52 ∧ m / 2 ^ j ≤ r ∧ r ≤ b := by
  have hm := le_of_log2 hlog
  have hle := h.shiftRight.roundedMantissa_le
  have hge := (roundedMantissa_bounds
    (ExtendedMantissa.ofMantissaAndAccuracy m accuracy >>> j)).1
  rw [mantissa_shiftRight, mantissa_ofMantissaAndAccuracy] at hge
  have hfirst : shiftToTargetExponent Format.binary64 m e accuracy =
      (ExtendedMantissa.ofMantissaAndAccuracy m accuracy >>> j, e + j) := by
    rw [shiftToTargetExponent_eq accuracy hm he, hlog, Nat.add_sub_cancel_left]
    exact Prod.ext rfl (by omega)
  have hlead := log2_leading hm
  rw [hlog, Nat.add_sub_cancel_left] at hlead
  have hlead := le_of_log2 (j := 0) hlead
  generalize ExtendedMantissa.ofMantissaAndAccuracy m accuracy >>> j = em at *
  generalize hr : em.roundedMantissa = r at *
  have hlogr : r.log2 = 52 := (Nat.log2_eq_iff (by omega)).2 ⟨by omega, by omega⟩
  have hlast : shiftToTargetExponent Format.binary64 r (e + j) .exact =
      (⟨r, false, false⟩, e + j) := by
    rw [shiftToTargetExponent_eq .exact (hlead.trans hge) (by omega), hlogr, Nat.sub_self]
    exact Prod.ext rfl (Int.add_sub_cancel _ 52)
  have hne : ¬r = 0 := by omega
  refine ⟨r, by omega, ?_, hlogr, hge, hle⟩
  simp only [roundWithAccuracy, hfirst, hr, hlast, dif_neg hne]

theorem normalBetween_of_atMost (s : Sign) {m b j : Nat} {e : Int} {accuracy : Accuracy}
    (hlog : m.log2 = 52 + j) (he : -1074 ≤ e)
    (h : AtMost (b * 2 ^ j) (ExtendedMantissa.ofMantissaAndAccuracy m accuracy))
    (hb : b < 2 ^ 53) :
    NormalBetween (e + j) (e + j) (roundWithAccuracy Format.binary64 s m e accuracy) := by
  obtain ⟨r, hr, hround, hlogr, -⟩ := roundWithAccuracy_eq s hlog he h hb
  exact ⟨s, r, e + j, hr, hround, hlogr, Int.le_refl _, Int.le_refl _⟩

theorem roundWithAccuracy_exact (s : Sign) {m : Nat} (j : Nat) {e : Int} (hm : 0 < m)
    (hlog : m.log2 = 52) (he : -1074 ≤ e) :
    roundWithAccuracy Format.binary64 s (m * 2 ^ j) e .exact = .finite s m (e + j) hm := by
  have hbounds := (Nat.log2_eq_iff hm.ne').1 hlog
  have hshifted : (m * 2 ^ j).log2 = 52 + j := by rw [log2_mul_two_pow hm.ne', hlog]
  obtain ⟨r, hr, hround, -, hge, hle⟩ :=
    roundWithAccuracy_eq s hshifted he (atMost_exact _) hbounds.2
  rw [Nat.mul_div_cancel _ (Nat.two_pow_pos j)] at hge
  cases Nat.le_antisymm hle hge
  exact hround

def countMantissa (n : Nat) : Nat :=
  n * 2 ^ (52 - n.log2)

def countExponent (n : Nat) : Int :=
  -(52 - n.log2 : Nat)

theorem countExponent_bounds (n : Nat) : -52 ≤ countExponent n ∧ countExponent n ≤ 0 := by
  unfold countExponent
  omega

theorem countMantissa_pos {n : Nat} (h : 0 < n) : 0 < countMantissa n :=
  Nat.mul_pos h (Nat.two_pow_pos _)

theorem log2_countMantissa {n : Nat} (h : 0 < n) (hn : n < 2 ^ 53) :
    (countMantissa n).log2 = 52 := by
  have hlog : n.log2 < 53 := (Nat.log2_lt h.ne').2 hn
  rw [countMantissa, log2_mul_two_pow h.ne']
  omega

theorem unpack_ofNat {n : Nat} (h : 0 < n) (hn : n < 2 ^ 53) :
    (Float.ofNat n).toModel.unpack =
      .finite .positive (countMantissa n) (countExponent n) (countMantissa_pos h) := by
  have hpos := countMantissa_pos h
  have hlog := log2_countMantissa h hn
  have hexponent := countExponent_bounds n
  have hround : UnpackedFloat.round Format.binary64 .positive n 0 =
      .finite .positive (countMantissa n) (countExponent n) hpos := by
    have hexact := roundWithAccuracy_exact .positive 0 hpos hlog (e := countExponent n) (by omega)
    rw [Nat.pow_zero, Nat.mul_one, Int.natCast_zero, Int.add_zero] at hexact
    rw [round_eq]
    exact hexact
  have hone : mul Format.binary64 (.finite .positive (countMantissa n) (countExponent n) hpos)
      (.finite .positive (2 ^ 52) (-52) (by decide)) =
      .finite .positive (countMantissa n) (countExponent n) hpos := by
    have hexact := roundWithAccuracy_exact .positive 52 hpos hlog (e := countExponent n + -52)
      (by omega)
    refine hexact.trans ?_
    congr 1
    omega
  rw [toModel_ofNat_small h hn, hround, unpack_pack_finite _ hpos hlog (by omega) (by omega), hone]
  exact unpack_pack_finite _ hpos hlog (by omega) (by omega)

theorem divCore_eq {m₁ m₂ : Nat} {e₁ e₂ : Int} (h₁ : m₁.log2 = 52) (h₂ : m₂.log2 = 52)
    (he : -1000 ≤ e₁ - e₂) :
    divCore Format.binary64 m₁ e₁ m₂ e₂ =
      (m₁ * 2 ^ 53 / m₂, e₁ - e₂ - 53, accuracyOfFraction (m₁ * 2 ^ 53 % m₂) m₂) := by
  have htarget : min (e₁ - e₂) (Format.binary64.targetExponent
      (totalExponent m₁ e₁ - totalExponent m₂ e₂)) = e₁ - e₂ - 53 := by
    simp only [Format.targetExponent, totalExponent, Format.mantissaBits, Format.minExponent, h₁, h₂]
    norm_num
    omega
  have hshift : (e₁ - e₂ - (e₁ - e₂ - 53)).toNat = 53 := by omega
  simp only [divCore, htarget, hshift, Nat.shiftLeft_eq]

theorem div_normal_of_lt {m₁ m₂ : Nat} {e₁ e₂ : Int} (hm₁ : 0 < m₁) (hm₂ : 0 < m₂)
    (h₁ : m₁.log2 = 52) (h₂ : m₂.log2 = 52) (he : -1000 ≤ e₁ - e₂)
    (h : e₁ < e₂ ∨ e₁ = e₂ ∧ m₁ < m₂) :
    NormalBetween (e₁ - e₂ - 53) (-53)
      (div Format.binary64 (.finite .positive m₁ e₁ hm₁) (.finite .positive m₂ e₂ hm₂)) := by
  have hb₁ := (Nat.log2_eq_iff hm₁.ne').1 h₁
  have hb₂ := (Nat.log2_eq_iff hm₂.ne').1 h₂
  have hlarge : 2 ^ 52 ≤ m₁ * 2 ^ 53 / m₂ := (Nat.le_div_iff_mul_le hm₂).2 (by omega)
  have hround : div Format.binary64 (.finite .positive m₁ e₁ hm₁) (.finite .positive m₂ e₂ hm₂) =
      roundWithAccuracy Format.binary64 .positive (m₁ * 2 ^ 53 / m₂) (e₁ - e₂ - 53)
        (accuracyOfFraction (m₁ * 2 ^ 53 % m₂) m₂) := by
    rw [div, divCore_eq h₁ h₂ he]
    rfl
  rw [hround]
  rcases h with hlt | ⟨rfl, hlt⟩
  · have hnum : m₁ * 2 ^ 53 ≤ (2 ^ 53 - 1) * 2 ^ 1 * m₂ := by omega
    have hle : m₁ * 2 ^ 53 / m₂ ≤ (2 ^ 53 - 1) * 2 ^ 1 := Nat.div_le_of_le_mul (by omega)
    have hat := atMost_fraction hnum hm₂
    generalize m₁ * 2 ^ 53 / m₂ = q at *
    by_cases hq : q < 2 ^ 53
    · have hlog : q.log2 = 52 := (Nat.log2_eq_iff (by omega)).2 ⟨hlarge, hq⟩
      exact (roundWithAccuracy_normal _ _ hlarge (by omega)).widen (by omega) (by omega)
    · have hlog : q.log2 = 52 + 1 := (Nat.log2_eq_iff (by omega)).2 ⟨by omega, by omega⟩
      exact (normalBetween_of_atMost _ hlog (by omega) hat (by decide)).widen (by omega) (by omega)
  · have hnum : m₁ * 2 ^ 53 ≤ (2 ^ 53 - 1) * 2 ^ 0 * m₂ := by omega
    have hle : m₁ * 2 ^ 53 / m₂ ≤ (2 ^ 53 - 1) * 2 ^ 0 := Nat.div_le_of_le_mul (by omega)
    have hat := atMost_fraction hnum hm₂
    generalize m₁ * 2 ^ 53 / m₂ = q at *
    have hlog : q.log2 = 52 + 0 := (Nat.log2_eq_iff (by omega)).2 ⟨hlarge, by omega⟩
    exact (normalBetween_of_atMost _ hlog (by omega) hat (by decide)).widen (by omega) (by omega)

theorem div_self_normal {m : Nat} {e : Int} (hm : 0 < m) (hlog : m.log2 = 52) :
    div Format.binary64 (.finite .positive m e hm) (.finite .positive m e hm) =
      .finite .positive (2 ^ 52) (-52) (by decide) := by
  have hcore : divCore Format.binary64 m e m e = (2 ^ 52 * 2 ^ 1, -53, .exact) := by
    rw [divCore_eq hlog hlog (by omega), Nat.mul_div_cancel_left _ hm, Nat.mul_mod_right]
    rw [Int.sub_self]
    rfl
  rw [div, hcore]
  exact roundWithAccuracy_exact _ 1 (by decide) (by decide) (by omega)

theorem count_lt {k n : Nat} (hk : 0 < k) (hlt : k < n) (hn : n < 2 ^ 53) :
    countExponent k < countExponent n ∨
      countExponent k = countExponent n ∧ countMantissa k < countMantissa n := by
  have hbounds := (Nat.log2_eq_iff hk.ne').1 rfl
  have hle : k.log2 ≤ n.log2 := (Nat.le_log2 (by omega)).2 (hbounds.1.trans hlt.le)
  have hlog : n.log2 < 53 := (Nat.log2_lt (by omega)).2 hn
  rcases hle.lt_or_eq with hlog | hlog
  · left
    rw [countExponent, countExponent]
    omega
  · right
    rw [countExponent, countExponent, countMantissa, countMantissa, hlog]
    exact ⟨rfl, Nat.mul_lt_mul_of_pos_right hlt (Nat.two_pow_pos _)⟩

theorem ofNat_div_eq_one_iff {k n : Nat} (hn : 0 < n) (hlt : n < 2 ^ 53) (hk : k ≤ n) :
    Float.ofNat k / Float.ofNat n = 1.0 ↔ k = n := by
  have hquotient : (Float.ofNat k / Float.ofNat n).toModel = Float.Model.pack
      (div Format.binary64 (Float.ofNat k).toModel.unpack (Float.ofNat n).toModel.unpack) := rfl
  have hunit : (1.0 : Float).toModel =
      Float.Model.pack (.finite .positive (2 ^ 52) (-52) (by decide)) := rfl
  rw [unpack_ofNat hn hlt] at hquotient
  constructor
  · intro hone
    by_contra hne
    have hkn : k < n := Nat.lt_of_le_of_ne hk hne
    rw [hone, hunit] at hquotient
    have hunpack := congrArg Float.Model.unpack hquotient
    change unpack _ (pack _ _) = unpack _ (pack _ _) at hunpack
    rw [unpack_pack_finite _ _ (by decide) (by decide) (by decide)] at hunpack
    rcases Nat.eq_zero_or_pos k with rfl | hpos
    · have hdiv : div Format.binary64 (Float.ofNat 0).toModel.unpack (.finite .positive
          (countMantissa n) (countExponent n) (countMantissa_pos hn)) = .zero .positive := rfl
      have hzero : unpack Format.binary64 (pack Format.binary64 (.zero .positive)) =
          .zero .positive := rfl
      rw [hdiv, hzero] at hunpack
      cases hunpack
    · have hbounds := countExponent_bounds k
      have hbounds' := countExponent_bounds n
      have hnormal := div_normal_of_lt (countMantissa_pos hpos) (countMantissa_pos hn)
        (log2_countMantissa hpos (hkn.trans hlt)) (log2_countMantissa hn hlt) (by omega)
        (count_lt hpos hkn hlt)
      rw [unpack_ofNat hpos (hkn.trans hlt), hnormal.unpack_pack (by omega) (by omega)] at hunpack
      obtain ⟨s, m, e, hm, he, -, -, hhigh⟩ := hnormal
      rw [he] at hunpack
      cases hunpack
      omega
  · rintro rfl
    rw [unpack_ofNat hn hlt, div_self_normal _ (log2_countMantissa hn hlt)] at hquotient
    exact congrArg Float.ofModel (hquotient.trans hunit.symm)

theorem ofInt_div_eq_one_iff {k : Int} {n : Nat} (hk : 0 ≤ k) (hle : k ≤ n) (hn : 0 < n)
    (hlt : n < 2 ^ 53) : Float.ofInt k / Float.ofNat n = 1.0 ↔ k = n := by
  obtain ⟨m, rfl⟩ := Int.eq_ofNat_of_zero_le hk
  rw [Int.ofNat_inj]
  exact ofNat_div_eq_one_iff hn hlt (by omega)

end AnswerGrading.FloatBits
