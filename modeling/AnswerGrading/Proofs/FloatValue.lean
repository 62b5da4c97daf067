import AnswerGrading.Grading.Score
import AnswerGrading.Proofs.FloatRounding

/-!
Exact values of floating-point numbers. The difference of a number and one is exact where it is
small, and where it is rounded it is far too large to be taken for small.
-/

namespace AnswerGrading.FloatBits

open Float.Model (Format UnpackedFloat totalExponent)
open Float.Model.UnpackedFloat

def rational? : UnpackedFloat → Option ℚ
  | .zero _ => some 0
  | .finite s m e _ => some (s.apply m * 2 ^ e)
  | _ => none

/-- The rational number that a floating-point number stands for; infinities and the NaN stand for
none. -/
def value? (x : Float) : Option ℚ :=
  rational? x.toModel.unpack

theorem unpack_finite_bounds {b : BitVec 64} {s : Sign} {m : Nat} {e : Int} {hm : 0 < m}
    (h : unpack Format.binary64 b = .finite s m e hm) : m < 2 ^ 53 ∧ -1074 ≤ e := by
  unfold unpack at h
  dsimp only at h
  split at h
  · split at h <;> cases h
  · split at h
    · rename_i hzero
      split at h
      · cases h
      · cases h
        have hlt := (@unpackMantissa Format.binary64 b).isLt
        rw [hzero]
        exact ⟨hlt.trans (by decide), by decide⟩
    · rename_i hzero
      cases h
      have hlt := (@unpackMantissa Format.binary64 b).isLt
      have hpos : (@unpackExponent Format.binary64 b).toNat ≠ 0 :=
        fun he => hzero (BitVec.eq_of_toNat_eq he)
      refine ⟨?_, ?_⟩
      · rw [toNat_leading_one]
        exact Nat.add_lt_add_left hlt _
      · change -1074 ≤ ((@unpackExponent Format.binary64 b).toNat : Int) - (1023 + 52)
        omega

theorem mul_zpow_lt {m k : Nat} {e d : Int} (hm : m.log2 = 52) (hk : k.log2 = 52) (h : e < d) :
    (m : ℚ) * 2 ^ e < k * 2 ^ d := by
  have hlt : (m : ℚ) < 2 ^ 53 := by
    have hm := (Nat.log2_eq_iff (by rintro rfl; cases hm)).1 hm
    exact_mod_cast hm.2
  have hle : (2 : ℚ) ^ 52 ≤ k := by
    have hk := (Nat.log2_eq_iff (by rintro rfl; cases hk)).1 hk
    exact_mod_cast hk.1
  calc (m : ℚ) * 2 ^ e
    _ < 2 ^ 53 * 2 ^ e := by gcongr
    _ = 2 ^ 52 * 2 ^ (e + 1) := by rw [zpow_add_one₀ (by norm_num)]; ring
    _ ≤ k * 2 ^ d := by gcongr <;> first | omega | norm_num

theorem compare_eq_lt_iff {m k : Nat} {e d : Int} (hm : 0 < m) (hk : 0 < k) (h₁ : m.log2 = 52)
    (h₂ : k.log2 = 52) :
    (UnpackedFloat.finite .positive m e hm).compare (.finite .positive k d hk) = some .lt ↔
      (m : ℚ) * 2 ^ e < k * 2 ^ d := by
  rw [UnpackedFloat.compare, Option.some.injEq, then_compare, cmp_eq_lt_iff,
    Prod.Lex.toLex_lt_toLex]
  rcases lt_trichotomy e d with h | rfl | h
  · exact iff_of_true (.inl h) (mul_zpow_lt h₁ h₂ h)
  · have hpos : (0 : ℚ) < 2 ^ e := by positivity
    rw [mul_lt_mul_iff_left₀ hpos]
    simp
  · refine iff_of_false ?_ (mul_zpow_lt h₂ h₁ h).not_gt
    rintro (hlt | ⟨he, -⟩)
    · exact absurd hlt h.not_gt
    · exact h.ne' he

theorem unpack_pack_infinity (s : Sign) :
    unpack Format.binary64 (pack Format.binary64 (.infinity s)) = .infinity s := by
  cases s <;> rfl

theorem unpack_pack_overflow (s : Sign) {m : Nat} {e : Int} (hm : 0 < m) (he : 971 < e) :
    unpack Format.binary64 (pack Format.binary64 (.finite s m e hm)) = .infinity s := by
  have hlarge : 2 ^ Format.binary64.exponentBits ≤
      (e + Format.binary64.exponentBias + Format.binary64.mantissaBitsWithoutImplicit).toNat + 1 := by
    change 2 ^ 11 ≤ (e + 1023 + 52).toNat + 1
    omega
  rw [pack, if_pos hlarge]
  exact unpack_pack_infinity s

theorem unpack_tolerance :
    tolerance.toModel.unpack = .finite .positive 4722366482869645 (-72) (by decide) := rfl

theorem abs_lt_tolerance_iff {y : Float} {s : Sign} {m : Nat} {e : Int} {hm : 0 < m}
    (hy : y.toModel = Float.Model.pack (.finite s m e hm)) (hlog : m.log2 = 52)
    (he : -1074 ≤ e) :
    y.abs < tolerance ↔ (m : ℚ) * 2 ^ e < 4722366482869645 * 2 ^ (-72 : Int) := by
  have habs : y.abs.toModel.unpack = unpack Format.binary64 (pack Format.binary64
      (unpack Format.binary64 (pack Format.binary64 (.finite s m e hm))).abs) := by
    change unpack Format.binary64 (pack Format.binary64 y.toModel.unpack.abs) = _
    rw [hy]
    rfl
  rw [lt_iff_compare, unpack_tolerance, habs]
  by_cases hsmall : e ≤ 971
  · rw [unpack_pack_finite s hm hlog he hsmall, UnpackedFloat.abs,
      unpack_pack_finite .positive hm hlog he hsmall,
      compare_eq_lt_iff hm (by decide) hlog (by decide)]
    norm_num
  · rw [unpack_pack_overflow s hm (by omega), UnpackedFloat.abs, unpack_pack_infinity]
    have hlarge : ((4722366482869645 : Nat) : ℚ) * 2 ^ (-72 : Int) < m * 2 ^ e :=
      mul_zpow_lt (by decide) hlog (by omega)
    exact iff_of_false (by simp [UnpackedFloat.compare]) (by simpa using hlarge.le)

theorem round_cases (s : Sign) {n : Nat} {e : Int} (hn : 0 < n) (he : -1074 ≤ e)
    (hl : -1074 ≤ n.log2 + e - 52) :
    ∃ t r d hr, UnpackedFloat.round Format.binary64 s n e = .finite t r d hr ∧ r.log2 = 52 ∧
      -1074 ≤ d ∧ (n.log2 ≤ 52 → (r : ℚ) * 2 ^ d = n * 2 ^ e) ∧
      (52 < n.log2 → n.log2 + e - 52 ≤ d) := by
  have htarget : Format.binary64.targetExponent (totalExponent n e) = n.log2 + e - 52 := by
    simp only [Format.targetExponent, totalExponent, Format.mantissaBits, Format.minExponent]
    norm_num
    omega
  have hshift : (e - (n.log2 + e - 52)).toNat = 52 - n.log2 := by omega
  have hround : UnpackedFloat.round Format.binary64 s n e = roundWithAccuracy Format.binary64 s
      (n * 2 ^ (52 - n.log2)) (e - (52 - n.log2 : Nat)) .exact := by
    simp only [UnpackedFloat.round, decreaseExponent, htarget, hshift, Nat.shiftLeft_eq]
  rw [hround]
  by_cases hsmall : n.log2 ≤ 52
  · have hpos : 0 < n * 2 ^ (52 - n.log2) := by positivity
    have hlog : (n * 2 ^ (52 - n.log2)).log2 = 52 := by
      rw [log2_mul_two_pow hn.ne']
      omega
    have hexact := roundWithAccuracy_exact s 0 hpos hlog (e := e - (52 - n.log2 : Nat)) (by omega)
    rw [Nat.pow_zero, Nat.mul_one] at hexact
    refine ⟨s, _, _, hpos, hexact, hlog, by omega, fun _ => ?_, fun h => absurd h (by omega)⟩
    push_cast
    rw [add_zero, mul_assoc, ← zpow_natCast, ← zpow_add₀ (by norm_num)]
    congr 2
    omega
  · have hzero : 52 - n.log2 = 0 := by omega
    rw [hzero, Nat.pow_zero, Nat.mul_one, Int.natCast_zero, Int.sub_zero]
    have hlarge : 2 ^ 52 ≤ n := (Nat.le_log2 hn.ne').1 (by omega)
    obtain ⟨t, r, d, hr, hfinite, hlog, hle, -⟩ := roundWithAccuracy_between s .exact hlarge he
    exact ⟨t, r, d, hr, hfinite, hlog, by omega, fun h => absurd h hsmall, fun _ => by omega⟩

theorem normalize_of_ne_zero {n : Int} (hn : n ≠ 0) (e : Int) (t : Sign) :
    ∃ s, UnpackedFloat.normalize Format.binary64 n e t =
      UnpackedFloat.round Format.binary64 s n.natAbs e := by
  rcases lt_or_gt_of_ne hn with h | h
  · have hnat : (-n).toNat = n.natAbs := by omega
    exact ⟨.negative, by rw [UnpackedFloat.normalize, Int.compare_eq_lt.2 h, hnat]⟩
  · have hnat : n.toNat = n.natAbs := by omega
    exact ⟨.positive, by rw [UnpackedFloat.normalize, Int.compare_eq_gt.2 h, hnat]⟩

theorem shiftLeft_mul_zpow (m : Nat) {e d : Int} (h : d ≤ e) :
    ((m <<< (e - d).toNat : Nat) : ℚ) * 2 ^ d = m * 2 ^ e := by
  have he : e = (e - d).toNat + d := by omega
  conv_rhs => rw [he]
  rw [Nat.shiftLeft_eq, zpow_add₀ (by norm_num), zpow_natCast]
  push_cast
  ring

/-- The difference from one in units of the finer of the two numbers. Where the units are finer than
those below one, their number is large. -/
theorem exists_sub_one {x : Float} {s : Sign} {m : Nat} {e : Int} {hm : 0 < m}
    (hx : x.toModel.unpack = .finite s m e hm) :
    ∃ n d : Int,
      (x - 1.0).toModel =
        Float.Model.pack (UnpackedFloat.normalize Format.binary64 n d .positive) ∧
      (s.apply m : ℚ) * 2 ^ e - 1 = n * 2 ^ d ∧ -1074 ≤ d ∧ d ≤ -52 ∧
      (d < -53 → -1 - d ≤ n.natAbs.log2) := by
  obtain ⟨hlt, he⟩ := unpack_finite_bounds hx
  refine ⟨s.apply (m <<< (e - min e (-52)).toNat : Nat) -
    (2 ^ 52 <<< (-52 - min e (-52)).toNat : Nat), min e (-52), ?_, ?_, by omega, min_le_right _ _, ?_⟩
  · change Float.Model.pack (sub Format.binary64 x.toModel.unpack (1.0 : Float).toModel.unpack) = _
    rw [hx]
    rfl
  · have hfirst := shiftLeft_mul_zpow m (min_le_left e (-52))
    have hsecond := shiftLeft_mul_zpow (2 ^ 52) (min_le_right e (-52))
    have hone : ((2 ^ 52 : Nat) : ℚ) * 2 ^ (-52 : Int) = 1 := by norm_num
    rw [hone] at hsecond
    rw [Int.cast_sub, sub_mul, Int.cast_natCast, hsecond]
    generalize m <<< (e - min e (-52)).toNat = shifted at *
    congr 1
    cases s with
    | positive => simpa [Sign.apply] using hfirst.symm
    | negative => simpa [Sign.apply] using hfirst.symm
  · intro hfine
    have hmin : min e (-52) = e := by omega
    rw [hmin] at hfine ⊢
    have hzero : (e - e).toNat = 0 := by omega
    obtain ⟨j, hj⟩ : ∃ j : Nat, -1 - e = (j + 53 : Nat) := ⟨(-1 - e).toNat - 53, by omega⟩
    have hk : (-52 - e).toNat = j + 2 := by omega
    have hpow : 2 ^ (j + 53) = 2 ^ 53 * 2 ^ j := by ring
    have hshift : 2 ^ 52 <<< (j + 2) = 2 ^ 54 * 2 ^ j := by rw [Nat.shiftLeft_eq]; ring
    have hone : 0 < 2 ^ j := Nat.two_pow_pos j
    rw [hzero, hk, Nat.shiftLeft_zero, hshift, hj, Int.ofNat_le]
    have hlarge : 2 ^ (j + 53) ≤ (s.apply (m : Nat) - (2 ^ 54 * 2 ^ j : Nat)).natAbs := by
      rw [hpow]
      cases s with
      | positive => simp only [Sign.apply]; omega
      | negative => simp only [Sign.apply]; omega
    exact (Nat.le_log2 (by omega)).2 hlarge

theorem unpack_abs_sub_one (x : Float) :
    (x - 1.0).abs.toModel.unpack = unpack Format.binary64 (pack Format.binary64
      (unpack Format.binary64 (pack Format.binary64 (sub Format.binary64 x.toModel.unpack
        (.finite .positive (2 ^ 52) (-52) (by decide))))).abs) :=
  rfl

theorem mul_lt_iff_le {k n : Nat} {unit bound : ℚ} (hu : 0 < unit) (hn : n * unit < bound)
    (hs : bound ≤ (n + 1) * unit) : k * unit < bound ↔ k ≤ n := by
  constructor
  · intro h
    have hlt : (k : ℚ) < n + 1 := lt_of_mul_lt_mul_right (h.trans_le hs) hu.le
    exact Nat.lt_succ_iff.1 (by exact_mod_cast hlt)
  · intro h
    have hle : (k : ℚ) * unit ≤ n * unit := by gcongr
    exact hle.trans_lt hn

/-- No multiple of the units around one lies between the tolerance and a millionth. -/
theorem mul_lt_tolerance_iff {k : Nat} {d : Int} (hl : -53 ≤ d) (hh : d ≤ -52) :
    (k : ℚ) * 2 ^ d < 4722366482869645 * 2 ^ (-72 : Int) ↔ (k : ℚ) * 2 ^ d < 1 / 10 ^ 6 := by
  obtain rfl | rfl : d = -53 ∨ d = -52 := by omega
  · rw [mul_lt_iff_le (n := 9007199254) (by norm_num) (by norm_num) (by norm_num),
      mul_lt_iff_le (n := 9007199254) (by norm_num) (by norm_num) (by norm_num)]
  · rw [mul_lt_iff_le (n := 4503599627) (by norm_num) (by norm_num) (by norm_num),
      mul_lt_iff_le (n := 4503599627) (by norm_num) (by norm_num) (by norm_num)]

theorem half_le_mul_zpow {n : Nat} {d : Int} (hn : n ≠ 0) (h : -1 ≤ n.log2 + d) :
    1 / 2 ≤ (n : ℚ) * 2 ^ d := by
  have hpow : ((2 ^ n.log2 : Nat) : ℚ) ≤ n := Nat.cast_le.2 (Nat.log2_self_le hn)
  calc (1 / 2 : ℚ)
    _ = 2 ^ (-1 : Int) := by norm_num
    _ ≤ 2 ^ (n.log2 + d) := zpow_le_zpow_right₀ (by norm_num) h
    _ = (2 ^ n.log2 : Nat) * 2 ^ d := by rw [zpow_add₀ (by norm_num), zpow_natCast]; norm_num
    _ ≤ n * 2 ^ d := by gcongr

theorem abs_sub_one_lt_tolerance_iff (x : Float) :
    (x - 1.0).abs < tolerance ↔ ∃ q, value? x = some q ∧ |q - 1| < 1 / 10 ^ 6 := by
  rw [value?]
  cases hx : x.toModel.unpack with
  | notANumber =>
      rw [lt_iff_compare, unpack_abs_sub_one, hx]
      exact iff_of_false (by decide) (by simp [rational?])
  | infinity s =>
      rw [lt_iff_compare, unpack_abs_sub_one, hx]
      exact iff_of_false (by cases s <;> decide) (by simp [rational?])
  | zero s =>
      rw [lt_iff_compare, unpack_abs_sub_one, hx]
      exact iff_of_false (by cases s <;> decide) (by norm_num [rational?])
  | finite s m e hm =>
      obtain ⟨n, d, hsub, hvalue, hlow, hhigh, hfine⟩ := exists_sub_one hx
      have habs : |(n : ℚ) * 2 ^ d| = n.natAbs * 2 ^ d := by
        rw [abs_mul, abs_of_pos (a := (2 : ℚ) ^ d) (by positivity), Nat.cast_natAbs, Int.cast_abs]
      simp only [rational?, Option.some.injEq, exists_eq_left', hvalue, habs]
      by_cases hn : n = 0
      · have hzero : (x - 1.0).toModel = Float.Model.pack (.zero .positive) := by
          rw [hsub, hn]
          rfl
        have hnone : (x - 1.0).abs.toModel.unpack = .zero .positive := by
          change unpack Format.binary64 (pack Format.binary64 (x - 1.0).toModel.unpack.abs) = _
          rw [hzero]
          rfl
        rw [lt_iff_compare, hnone, unpack_tolerance, hn]
        exact iff_of_true rfl (by norm_num)
      · obtain ⟨t, hround⟩ := normalize_of_ne_zero hn d .positive
        obtain ⟨u, r, b, hr, hfinite, hlog, hb, hexact, hlarge⟩ :=
          round_cases t (Int.natAbs_pos.2 hn) hlow (by omega)
        rw [hround, hfinite] at hsub
        rw [abs_lt_tolerance_iff hsub hlog hb]
        by_cases hsmall : n.natAbs.log2 ≤ 52
        · rw [hexact hsmall]
          exact mul_lt_tolerance_iff (by omega) hhigh
        · have hfar := half_le_mul_zpow (Int.natAbs_ne_zero.2 hn) (d := d) (by omega)
          have hrounded : ((4722366482869645 : Nat) : ℚ) * 2 ^ (-72 : Int) < r * 2 ^ b :=
            mul_zpow_lt (by decide) hlog (by omega)
          exact iff_of_false (by simpa using hrounded.le) (by linarith)

theorem beq_zero_iff (x : Float) : (x == 0.0) = true ↔ value? x = some 0 := by
  have hcompare : (x == 0.0) = (x.toModel.unpack.compare (.zero .positive) == some .eq) := rfl
  rw [value?, hcompare]
  cases x.toModel.unpack with
  | notANumber => simp [rational?, UnpackedFloat.compare]
  | infinity s => cases s <;> simp [rational?, UnpackedFloat.compare]
  | zero s => simp [rational?, UnpackedFloat.compare]
  | finite s m e hm =>
      have hpow : (2 : ℚ) ^ e ≠ 0 := by positivity
      cases s <;> simp [rational?, UnpackedFloat.compare, Sign.apply, hm.ne', hpow]

end AnswerGrading.FloatBits
