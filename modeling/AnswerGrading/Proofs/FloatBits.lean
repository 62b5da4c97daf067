import Mathlib

namespace AnswerGrading.FloatBits

open Float.Model (Format)
open Float.Model.UnpackedFloat

theorem toBitVec_ofBitVec (b : BitVec 1) : (Sign.ofBitVec b).toBitVec = b := by
  revert b
  decide

theorem packComponents_parts (spec : Format) (b : BitVec spec.numBits) :
    packComponents spec (Sign.ofBitVec (unpackSign b)) (unpackExponent b) (unpackMantissa b) =
      b := by
  have hm := spec.hm
  have he := spec.he
  rw [packComponents, toBitVec_ofBitVec]
  refine BitVec.eq_of_getLsbD_eq fun i hi => ?_
  simp only [unpackSign, unpackExponent, unpackMantissa, BitVec.getLsbD_append,
    BitVec.getLsbD_cast, BitVec.getLsbD_extractLsb]
  grind

theorem toNat_leading_one (m : BitVec 52) : (1#1 ++ m).toNat = 2 ^ 52 + m.toNat := by
  rw [BitVec.toNat_append, ← Nat.shiftLeft_add_eq_or_of_lt m.isLt]
  simp [Nat.shiftLeft_eq]

theorem log2_leading_one (m : BitVec 52) : (1#1 ++ m).toNat.log2 = 52 := by
  have hm := m.isLt
  rw [toNat_leading_one, Nat.log2_eq_iff (by omega)]
  omega

theorem pack_normal (s : Sign) {e : BitVec 11} (m : BitVec 52) (he : e ≠ -1#11)
    (h : 0 < (1#1 ++ m).toNat) :
    pack Format.binary64 (.finite s (1#1 ++ m).toNat
      (e.toNat - (Format.binary64.exponentBias + Format.binary64.mantissaBitsWithoutImplicit)) h) =
      packComponents Format.binary64 s e m := by
  have hlt := e.isLt
  have hm := m.isLt
  have hne : e.toNat ≠ 2047 := fun hn => he (BitVec.eq_of_toNat_eq hn)
  simp only [pack, log2_leading_one]
  rw [if_neg, if_pos (by rfl)]
  · congr 1
    · apply BitVec.eq_of_toNat_eq
      simp
      omega
    · apply BitVec.eq_of_toNat_eq
      simp [toNat_leading_one]
      omega
  · simp
    omega

theorem pack_subnormal (s : Sign) {m : BitVec 52} (h : 0 < m.toNat) :
    pack Format.binary64 (.finite s m.toNat
      (((0#11).toNat : Int) -
        (Format.binary64.exponentBias + Format.binary64.mantissaBitsWithoutImplicit) + 1) h) =
      packComponents Format.binary64 s 0#11 m := by
  have hl : m.toNat.log2 < 52 := (Nat.log2_lt (Nat.ne_of_gt h)).2 m.isLt
  simp only [pack]
  rw [if_neg, if_neg]
  · congr 1
    exact BitVec.eq_of_toNat_eq (by simp)
  · simp [Format.mantissaBits]
    omega
  · simp [Format.exponentBias]

/-- A NaN is valid only with the bits that packing gives it, so that nothing is lost there. -/
theorem pack_unpack {b : BitVec 64} (hb : Format.binary64.Valid b) :
    pack Format.binary64 (unpack Format.binary64 b) = b := by
  have hc := packComponents_parts Format.binary64 b
  unfold unpack
  dsimp only
  split
  · rename_i hinf
    split
    · rename_i hm
      rw [hinf, hm] at hc
      exact hc
    · rename_i hm
      exact (hb.eq_packedNaN hinf hm).symm
  · rename_i hinf
    split
    · rename_i hsub
      rw [hsub] at hc
      split
      · rename_i hm
        rw [hm] at hc
        exact hc
      · rw [hsub]
        exact (pack_subnormal _ _).trans hc
    · exact (pack_normal _ _ hinf _).trans hc

theorem ofBits_toBits (x : Float) : Float.ofBits x.toBits = x := by
  obtain ⟨⟨bits, valid⟩⟩ := x
  simp only [Float.ofBits, Float.toBits, Float.Model.ofBits, Float.Model.pack, pack_unpack valid]

theorem isFinite_eq (x : Float) : x.isFinite = !(x.isNaN || x.isInf) := by
  simp only [Float.isFinite, Float.isNaN, Float.isInf, Float.Model.isFinite, Float.Model.isNaN,
    Float.Model.isInf]
  cases x.toModel.unpack <;> rfl

end AnswerGrading.FloatBits
