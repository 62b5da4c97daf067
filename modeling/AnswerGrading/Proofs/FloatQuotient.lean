import AnswerGrading.Proofs.FloatOrder

/-!
Counts as numbers. A count that is not zero becomes a positive normal number, whose exponent stays far
from both ends of the range, so that two of them can be divided.
-/

namespace AnswerGrading.FloatBits

open Float.Model (Format UnpackedFloat totalExponent)
open Float.Model.UnpackedFloat

def NormalBetween (low high : Int) (u : UnpackedFloat) : Prop :=
  ∃ s m e h, u = .finite s m e h ∧ m.log2 = 52 ∧ low ≤ e ∧ e ≤ high

theorem NormalBetween.widen {low high low' high' : Int} {u : UnpackedFloat}
    (h : NormalBetween low high u) (hl : low' ≤ low) (hh : high ≤ high') :
    NormalBetween low' high' u := by
  obtain ⟨s, m, e, hm, hu, hlog, hle, hge⟩ := h
  exact ⟨s, m, e, hm, hu, hlog, by omega, by omega⟩

theorem ofBitVec_unpackSign (s : Sign) (e : BitVec 11) (m : BitVec 52) :
    Sign.ofBitVec (unpackSign (packComponents Format.binary64 s e m)) = s := by
  have h : unpackSign (packComponents Format.binary64 s e m) = s.toBitVec := by
    refine BitVec.eq_of_getLsbD_eq fun i hi => ?_
    simp only [unpackSign, packComponents, BitVec.getLsbD_append, BitVec.getLsbD_cast,
      BitVec.getLsbD_extractLsb]
    grind
  rw [h]
  cases s <;> rfl

theorem unpack_packComponents (s : Sign) {e : BitVec 11} (m : BitVec 52) (hinf : e ≠ -1#11)
    (hzero : e ≠ 0#11) :
    unpack Format.binary64 (packComponents Format.binary64 s e m) =
      .finite s (1#1 ++ m).toNat
        (e.toNat - (Format.binary64.exponentBias + Format.binary64.mantissaBitsWithoutImplicit))
        (by rw [toNat_leading_one]; omega) := by
  unfold unpack
  dsimp only
  simp only [unpackExponent_packComponents, unpackMantissa_packComponents, if_neg hinf,
    if_neg hzero, ofBitVec_unpackSign]

theorem unpack_pack_finite (s : Sign) {m : Nat} {e : Int} (hm : 0 < m) (hlog : m.log2 = 52)
    (hl : -1074 ≤ e) (hh : e ≤ 971) :
    unpack Format.binary64 (pack Format.binary64 (.finite s m e hm)) = .finite s m e hm := by
  have hbounds := (Nat.log2_eq_iff hm.ne').1 hlog
  have hmantissa : m = (1#1 ++ BitVec.ofNat 52 m).toNat := by
    rw [toNat_leading_one, BitVec.toNat_ofNat]
    omega
  have hexponent : e = (BitVec.ofNat 11 (e + 1075).toNat).toNat -
      (Format.binary64.exponentBias + Format.binary64.mantissaBitsWithoutImplicit) := by
    change e = _ - (1023 + 52)
    rw [BitVec.toNat_ofNat]
    omega
  have hinf : BitVec.ofNat 11 (e + 1075).toNat ≠ -1#11 :=
    exponent_ne (k := 2047) (by omega) (by decide) (by omega)
  have hzero : BitVec.ofNat 11 (e + 1075).toNat ≠ 0#11 :=
    exponent_ne (by omega) (by decide) (by omega)
  have hpack := pack_normal s (BitVec.ofNat 52 m) hinf (by omega)
  have hunpack := unpack_packComponents s (BitVec.ofNat 52 m) hinf hzero
  rw [← hpack] at hunpack
  simpa only [← hexponent, ← hmantissa] using hunpack

theorem NormalBetween.unpack_pack {low high : Int} {u : UnpackedFloat}
    (h : NormalBetween low high u) (hl : -1074 ≤ low) (hh : high ≤ 971) :
    unpack Format.binary64 (pack Format.binary64 u) = u := by
  obtain ⟨s, m, e, hm, rfl, hlog, hle, hge⟩ := h
  exact unpack_pack_finite s hm hlog (by omega) (by omega)

theorem mantissa_shiftRight (em : ExtendedMantissa) (n : Nat) :
    (em >>> n).mantissa = em.mantissa / 2 ^ n := by
  induction n with
  | zero => simp [HShiftRight.hShiftRight, Nat.repeat]
  | succ n ih =>
      have h : (em >>> (n + 1)).mantissa = (em >>> n).mantissa / 2 := rfl
      rw [h, ih, Nat.div_div_eq_div_mul, Nat.pow_succ]

theorem roundedMantissa_bounds (em : ExtendedMantissa) :
    em.mantissa ≤ em.roundedMantissa ∧ em.roundedMantissa ≤ em.mantissa + 1 := by
  obtain ⟨m, r, s⟩ := em
  cases r <;> cases s <;>
    simp [ExtendedMantissa.roundedMantissa, ExtendedMantissa.accuracy, Accuracy.roundToNearestEven]
  omega

theorem log2_leading {m : Nat} (hm : 2 ^ 52 ≤ m) : (m / 2 ^ (m.log2 - 52)).log2 = 52 := by
  have hlog : 52 ≤ m.log2 := (Nat.le_log2 (by omega)).2 hm
  have hbounds := (Nat.log2_eq_iff (by omega)).1 (rfl : m.log2 = m.log2)
  have hlow : 2 ^ 52 ≤ m / 2 ^ (m.log2 - 52) := by
    rw [Nat.le_div_iff_mul_le (Nat.two_pow_pos _), ← Nat.pow_add, Nat.add_sub_cancel' hlog]
    exact hbounds.1
  have hhigh : m / 2 ^ (m.log2 - 52) < 2 ^ 53 := by
    rw [Nat.div_lt_iff_lt_mul (Nat.two_pow_pos _), ← Nat.pow_add,
      (by omega : 53 + (m.log2 - 52) = m.log2 + 1)]
    exact hbounds.2
  exact (Nat.log2_eq_iff (by omega)).2 ⟨hlow, hhigh⟩

theorem shiftToTargetExponent_eq {m : Nat} {e : Int} (accuracy : Accuracy) (hm : 2 ^ 52 ≤ m)
    (he : -1074 ≤ e) :
    shiftToTargetExponent Format.binary64 m e accuracy =
      (ExtendedMantissa.ofMantissaAndAccuracy m accuracy >>> (m.log2 - 52), e + m.log2 - 52) := by
  have hlog : 52 ≤ m.log2 := (Nat.le_log2 (by omega)).2 hm
  have htarget : Format.binary64.targetExponent (totalExponent m e) = e + m.log2 - 52 := by
    simp only [Format.targetExponent, totalExponent, Format.mantissaBits, Format.minExponent]
    norm_num
    omega
  have hshift : (e + m.log2 - 52 - e).toNat = m.log2 - 52 := by omega
  have hexponent : e + ((m.log2 - 52 : Nat) : Int) = e + m.log2 - 52 := by omega
  simp only [shiftToTargetExponent, shiftToExponent, htarget, hshift, hexponent]

theorem mantissa_ofMantissaAndAccuracy (m : Nat) (accuracy : Accuracy) :
    (ExtendedMantissa.ofMantissaAndAccuracy m accuracy).mantissa = m := by
  cases accuracy with
  | exact => rfl
  | inexact o => cases o <;> rfl

theorem shiftToTargetExponent_normal {m : Nat} {e : Int} (accuracy : Accuracy)
    (hm : 2 ^ 52 ≤ m) (he : -1074 ≤ e) :
    (shiftToTargetExponent Format.binary64 m e accuracy).1.mantissa.log2 = 52 ∧
      (shiftToTargetExponent Format.binary64 m e accuracy).2 = e + m.log2 - 52 := by
  rw [shiftToTargetExponent_eq accuracy hm he]
  refine ⟨?_, rfl⟩
  rw [mantissa_shiftRight, mantissa_ofMantissaAndAccuracy, log2_leading hm]

theorem roundWithAccuracy_between (s : Sign) {m : Nat} {e : Int} (accuracy : Accuracy)
    (hm : 2 ^ 52 ≤ m) (he : -1074 ≤ e) :
    NormalBetween (e + m.log2 - 52) (e + m.log2 - 51)
      (roundWithAccuracy Format.binary64 s m e accuracy) := by
  have hlog : 52 ≤ m.log2 := (Nat.le_log2 (by omega)).2 hm
  obtain ⟨hfirst, hexponent⟩ := shiftToTargetExponent_normal accuracy hm he
  have hround := roundedMantissa_bounds (shiftToTargetExponent Format.binary64 m e accuracy).1
  rw [roundWithAccuracy]
  generalize shiftToTargetExponent Format.binary64 m e accuracy = first at *
  obtain ⟨em, e₁⟩ := first
  dsimp only at *
  have hpos : em.mantissa ≠ 0 := by
    intro h
    rw [h] at hfirst
    cases hfirst
  have hbounds := (Nat.log2_eq_iff hpos).1 hfirst
  -- rounding up may reach the next power of two, and the second shift brings it back
  have hrounded : 2 ^ 52 ≤ em.roundedMantissa := by omega
  have hlow : 52 ≤ em.roundedMantissa.log2 := (Nat.le_log2 (by omega)).2 hrounded
  have hhigh : em.roundedMantissa.log2 < 54 := (Nat.log2_lt (by omega)).2 (by omega)
  obtain ⟨hlast, hend⟩ := shiftToTargetExponent_normal .exact hrounded (e := e₁) (by omega)
  have hne : (shiftToTargetExponent Format.binary64 em.roundedMantissa e₁ .exact).1.mantissa ≠ 0 := by
    intro h
    rw [h] at hlast
    cases hlast
  rw [dif_neg hne]
  exact ⟨s, _, _, _, rfl, hlast, by omega, by omega⟩

theorem roundWithAccuracy_normal (s : Sign) {m : Nat} {e : Int} (accuracy : Accuracy)
    (hm : 2 ^ 52 ≤ m) (he : -1074 ≤ e) :
    NormalBetween e (e + m.log2 - 51) (roundWithAccuracy Format.binary64 s m e accuracy) := by
  have hlog : 52 ≤ m.log2 := (Nat.le_log2 (by omega)).2 hm
  exact (roundWithAccuracy_between s accuracy hm he).widen (by omega) (Int.le_refl _)

theorem log2_mul_two_pow {n : Nat} (hn : n ≠ 0) (k : Nat) : (n * 2 ^ k).log2 = n.log2 + k := by
  have h := (Nat.log2_eq_iff hn).1 rfl
  have hp := Nat.two_pow_pos k
  refine (Nat.log2_eq_iff (Nat.mul_ne_zero hn hp.ne')).2 ⟨?_, ?_⟩
  · rw [Nat.pow_add]
    exact Nat.mul_le_mul_right _ h.1
  · rw [Nat.add_right_comm, Nat.pow_add]
    exact Nat.mul_lt_mul_of_pos_right h.2 hp

theorem round_eq (s : Sign) (n : Nat) :
    UnpackedFloat.round Format.binary64 s n 0 =
      roundWithAccuracy Format.binary64 s (n * 2 ^ (52 - n.log2)) (-(52 - n.log2 : Nat)) .exact := by
  have htarget : Format.binary64.targetExponent (totalExponent n 0) = (n.log2 : Int) - 52 := by
    simp only [Format.targetExponent, totalExponent, Format.mantissaBits, Format.minExponent]
    norm_num
    omega
  have hshift : (-((n.log2 : Int) - 52)).toNat = 52 - n.log2 := by omega
  simp only [UnpackedFloat.round, decreaseExponent, htarget, zero_sub, hshift, Nat.shiftLeft_eq]

theorem round_normal (s : Sign) {n : Nat} (hn : 0 < n) :
    NormalBetween (-52) (n.log2 + 1) (UnpackedFloat.round Format.binary64 s n 0) := by
  have hlog := log2_mul_two_pow hn.ne' (52 - n.log2)
  have hpos : n * 2 ^ (52 - n.log2) ≠ 0 := Nat.mul_ne_zero hn.ne' (Nat.two_pow_pos _).ne'
  have hm : 2 ^ 52 ≤ n * 2 ^ (52 - n.log2) := (Nat.le_log2 hpos).1 (by omega)
  rw [round_eq]
  exact (roundWithAccuracy_normal s .exact hm (by omega)).widen (by omega) (by omega)

theorem mul_normal (s t : Sign) {m k : Nat} {e d : Int} (hm : 0 < m) (hk : 0 < k)
    (h : 2 ^ 52 ≤ m * k) (he : -1074 ≤ e + d) :
    NormalBetween (e + d) (e + d + (m * k).log2 - 51)
      (mul Format.binary64 (.finite s m e hm) (.finite t k d hk)) :=
  roundWithAccuracy_normal _ .exact h he

theorem mul_one_normal {low high : Int} {u : UnpackedFloat} (h : NormalBetween low high u)
    (hl : -1000 ≤ low) :
    NormalBetween (low - 52) (high + 1)
      (mul Format.binary64 u (.finite .positive (2 ^ 52) (-52) (by decide))) := by
  obtain ⟨s, m, e, hm, rfl, hlog, hle, hge⟩ := h
  have hproduct := log2_mul_two_pow hm.ne' 52
  have hlarge : 2 ^ 52 ≤ m * 2 ^ 52 := Nat.le_mul_of_pos_left _ hm
  exact (mul_normal _ _ hm _ hlarge (by omega)).widen (by omega) (by omega)

theorem toModel_toFloat {n : Nat} (h : 0 < n) (hn : n < 2 ^ 53) :
    n.toUInt64.toFloat.toModel =
      Float.Model.pack (UnpackedFloat.round Format.binary64 .positive n 0) := by
  have hround : UnpackedFloat.ofInt Format.binary64 n =
      UnpackedFloat.round Format.binary64 .positive n 0 := by
    rw [UnpackedFloat.ofInt, UnpackedFloat.normalize, Int.compare_eq_gt.2 (by omega)]
    rfl
  change Float.Model.pack (UnpackedFloat.ofInt Format.binary64 n.toUInt64.toNat) = _
  rw [Nat.toUInt64_eq, UInt64.toNat_ofNat', Nat.mod_eq_of_lt (by omega), hround]

theorem toModel_ofNat_small {n : Nat} (h : 0 < n) (hn : n < 2 ^ 53) :
    (Float.ofNat n).toModel = Float.Model.pack (mul Format.binary64
      (unpack Format.binary64 (pack Format.binary64
        (UnpackedFloat.round Format.binary64 .positive n 0)))
      (.finite .positive (2 ^ 52) (-52) (by decide))) := by
  have hproduct : Float.ofNat n = n.toUInt64.toFloat * 1.0 := by
    change Float.ofScientific n false 0 = _
    rw [Float.ofScientific, dif_pos ⟨hn, by decide⟩]
    rfl
  rw [hproduct]
  change Float.Model.pack (mul _ n.toUInt64.toFloat.toModel.unpack _) = _
  rw [toModel_toFloat h hn]
  rfl

theorem toModel_ofNat_large {n : Nat} (hn : 2 ^ 53 ≤ n) :
    (Float.ofNat n).toModel = Float.Model.pack (mul Format.binary64
      (.finite .positive (n * 2 ^ 53) (-53) (by positivity))
      (.finite .positive 1 0 Nat.one_pos)) := by
  change (Float.ofScientific n false 0).toModel = _
  rw [Float.ofScientific, dif_neg (by omega)]
  change Float.Model.pack (UnpackedFloat.ofScientific Format.binary64 n 0) = _
  have hrange : (0 : Int) ≤ 2 ^ Format.binary64.exponentBits := by positivity
  rw [UnpackedFloat.ofScientific, dif_neg (by omega), if_neg (by omega), if_neg (by omega),
    if_pos (by decide)]
  simp only [Nat.shiftLeft_eq]
  rfl

def Signed (s : Sign) (u : UnpackedFloat) : Prop :=
  u = .zero s ∨ ∃ m e h, u = .finite s m e h

theorem signed_roundWithAccuracy (spec : Format) (s : Sign) (m : Nat) (e : Int)
    (accuracy : Accuracy) : Signed s (roundWithAccuracy spec s m e accuracy) := by
  unfold roundWithAccuracy
  dsimp only
  split
  · exact .inl rfl
  · exact .inr ⟨_, _, _, rfl⟩

theorem NormalBetween.of_signed {low high : Int} {s : Sign} {u : UnpackedFloat}
    (h : NormalBetween low high u) (hs : Signed s u) :
    ∃ m e hm, u = .finite s m e hm ∧ m.log2 = 52 ∧ low ≤ e ∧ e ≤ high := by
  obtain ⟨t, m, e, hm, rfl, hbounds⟩ := h
  rcases hs with hzero | ⟨_, _, _, hu⟩
  · cases hzero
  · cases hu
    exact ⟨m, e, hm, rfl, hbounds⟩

theorem unpack_ofNat_positive {n : Nat} (h : 0 < n) (hn : n.log2 < 900) :
    ∃ m e hm, (Float.ofNat n).toModel.unpack = .finite .positive m e hm ∧ m.log2 = 52 ∧
      -104 ≤ e ∧ e ≤ n.log2 + 2 := by
  by_cases hsmall : n < 2 ^ 53
  · have hround := round_normal .positive h
    have hlog : n.log2 < 53 := (Nat.log2_lt h.ne').2 hsmall
    have hmul := mul_one_normal hround (by omega)
    have hsigned := signed_roundWithAccuracy Format.binary64 .positive (n * 2 ^ (52 - n.log2))
      (-(52 - n.log2 : Nat)) .exact
    rw [← round_eq] at hsigned
    rw [toModel_ofNat_small h hsmall, hround.unpack_pack (by omega) (by omega)]
    change ∃ m e hm, unpack _ (pack _ _) = _ ∧ _
    rw [hmul.unpack_pack (by omega) (by omega)]
    obtain ⟨m, e, hm, hu, -⟩ := hround.of_signed hsigned
    rw [hu] at hmul ⊢
    exact (hmul.widen (by omega) (by omega)).of_signed (signed_roundWithAccuracy _ _ _ _ _)
  · have hlog := log2_mul_two_pow h.ne' 53
    have hpos : 0 < n * 2 ^ 53 := by positivity
    have hmul := mul_normal .positive .positive hpos Nat.one_pos (by omega) (e := -53) (d := 0)
      (by omega)
    rw [toModel_ofNat_large (by omega)]
    change ∃ m e hm, unpack _ (pack _ _) = _ ∧ _
    rw [hmul.unpack_pack (by omega) (by rw [Nat.mul_one]; omega)]
    rw [Nat.mul_one] at hmul
    exact (hmul.widen (by omega) (by omega)).of_signed (signed_roundWithAccuracy _ _ _ _ _)

theorem isNaN_roundWithAccuracy (spec : Format) (s : Sign) (m : Nat) (e : Int)
    (accuracy : Accuracy) : (roundWithAccuracy spec s m e accuracy).isNaN = false := by
  unfold roundWithAccuracy
  dsimp only
  split <;> rfl

end AnswerGrading.FloatBits
