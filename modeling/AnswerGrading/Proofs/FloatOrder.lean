import AnswerGrading.Proofs.FloatBits

/-!
The order of floating-point numbers. Apart from the NaN, which is in order with nothing, they are
compared by their places in a linear order, where both zeros have one place.
-/

namespace AnswerGrading.FloatBits

open Float.Model (Format UnpackedFloat)
open Float.Model.UnpackedFloat

def above (x : ℤ ×ₗ ℤ) : ℤ ×ₗ ℤ ×ₗ ℤ :=
  toLex (1, x)

def below (x : ℤ ×ₗ ℤ) : ℤ ×ₗ ℤ ×ₗ ℤ :=
  toLex (-1, toLex (-(ofLex x).1, -(ofLex x).2))

theorem strictMono_above : StrictMono above := by
  intro x y h
  exact Prod.Lex.toLex_lt_toLex.2 (.inr ⟨rfl, h⟩)

theorem strictAnti_below : StrictAnti below := by
  intro x y h
  apply Prod.Lex.toLex_lt_toLex.2
  refine .inr ⟨rfl, Prod.Lex.toLex_lt_toLex.2 ?_⟩
  rcases Prod.Lex.lt_iff.1 h with h | ⟨he, h⟩
  · exact .inl (Int.neg_lt_neg h)
  · exact .inr ⟨congrArg Neg.neg he.symm, Int.neg_lt_neg h⟩

def rank : UnpackedFloat → ℤ ×ₗ ℤ ×ₗ ℤ
  | .infinity .negative => toLex (-2, toLex (0, 0))
  | .finite .negative m e _ => below (toLex (e, m))
  | .zero _ => toLex (0, toLex (0, 0))
  | .finite .positive m e _ => above (toLex (e, m))
  | .infinity .positive => toLex (2, toLex (0, 0))
  | .notANumber => toLex (0, toLex (0, 0))

theorem then_compare (e₁ e₂ : ℤ) (m₁ m₂ : ℕ) :
    (compare e₁ e₂).then (compare m₁ m₂) =
      cmp (toLex (e₁, (m₁ : ℤ))) (toLex (e₂, (m₂ : ℤ))) := by
  rcases lt_trichotomy e₁ e₂ with h | h | h
  · rw [compare_lt_iff_lt.2 h, (cmp_eq_lt_iff _ _).2 (Prod.Lex.toLex_lt_toLex.2 (.inl h))]
    rfl
  · subst h
    rw [compare_eq_iff_eq.2 rfl, Ordering.then]
    rcases lt_trichotomy m₁ m₂ with hm | hm | hm
    · rw [compare_lt_iff_lt.2 hm, (cmp_eq_lt_iff _ _).2]
      exact Prod.Lex.toLex_lt_toLex.2 (.inr ⟨rfl, Int.ofNat_lt.2 hm⟩)
    · subst hm
      rw [compare_eq_iff_eq.2 rfl, cmp_self_eq_eq]
    · rw [compare_gt_iff_gt.2 hm, (cmp_eq_gt_iff _ _).2]
      exact Prod.Lex.toLex_lt_toLex.2 (.inr ⟨rfl, Int.ofNat_lt.2 hm⟩)
  · rw [compare_gt_iff_gt.2 h, (cmp_eq_gt_iff _ _).2 (Prod.Lex.toLex_lt_toLex.2 (.inl h))]
    rfl

theorem compare_eq_cmp {a b : UnpackedFloat} (ha : a.isNaN = false) (hb : b.isNaN = false) :
    a.compare b = some (cmp (rank a) (rank b)) := by
  cases a with
  | notANumber => cases ha
  | infinity s =>
      cases s <;> cases b with
      | notANumber => cases hb
      | infinity t => cases t <;> rfl
      | zero t => rfl
      | finite t m e h => cases t <;> rfl
  | zero s =>
      cases b with
      | notANumber => cases hb
      | infinity t => cases t <;> rfl
      | zero t => rfl
      | finite t m e h => cases t <;> rfl
  | finite s m₁ e₁ h₁ =>
      cases b with
      | notANumber => cases hb
      | infinity t => cases s <;> cases t <;> rfl
      | zero t => cases s <;> rfl
      | finite t m₂ e₂ h₂ =>
          cases s <;> cases t
          · rw [UnpackedFloat.compare, then_compare, cmp_swap, rank, rank,
              strictAnti_below.cmp_map_eq]
          · rfl
          · rfl
          · rw [UnpackedFloat.compare, then_compare, rank, rank, strictMono_above.cmp_map_eq]

def order (x : Float) : ℤ ×ₗ ℤ ×ₗ ℤ :=
  rank x.toModel.unpack

theorem lt_iff_compare {x y : Float} :
    x < y ↔ x.toModel.unpack.compare y.toModel.unpack = some .lt :=
  decide_eq_true_iff.trans beq_iff_eq

theorem le_iff_compare {x y : Float} :
    x ≤ y ↔ (x.toModel.unpack.compare y.toModel.unpack).any (·.isLE) = true :=
  decide_eq_true_iff

theorem lt_iff {x y : Float} (hx : x.isNaN = false) (hy : y.isNaN = false) :
    x < y ↔ order x < order y := by
  rw [lt_iff_compare, compare_eq_cmp hx hy, Option.some.injEq, cmp_eq_lt_iff]
  rfl

theorem le_iff {x y : Float} (hx : x.isNaN = false) (hy : y.isNaN = false) :
    x ≤ y ↔ order x ≤ order y := by
  rw [le_iff_compare, compare_eq_cmp hx hy, Option.any_some, ← Ordering.ne_gt_iff_isLE,
    ← not_lt, not_iff_not, cmp_eq_gt_iff]
  rfl

theorem not_lt_iff {x y : Float} (hx : x.isNaN = false) (hy : y.isNaN = false) :
    ¬x < y ↔ y ≤ x := by
  rw [lt_iff hx hy, le_iff hy hx, not_lt]

theorem isNaN_zero : (0.0 : Float).isNaN = false := rfl

theorem eq_notANumber {u : UnpackedFloat} (h : u.isNaN = true) : u = .notANumber := by
  cases u with
  | notANumber => rfl
  | infinity s => cases h
  | zero s => cases h
  | finite s m e hm => cases h

theorem isNaN_of_compare {a b : UnpackedFloat} {o : Ordering} (h : a.compare b = some o) :
    a.isNaN = false ∧ b.isNaN = false := by
  constructor
  · cases a with
    | notANumber => cases h
    | _ => rfl
  · cases b with
    | notANumber => cases a <;> cases h
    | _ => rfl

theorem isNaN_of_lt {x y : Float} (h : x < y) : x.isNaN = false ∧ y.isNaN = false :=
  isNaN_of_compare (lt_iff_compare.1 h)

theorem isNaN_of_le {x y : Float} (h : x ≤ y) : x.isNaN = false ∧ y.isNaN = false := by
  obtain ⟨o, ho, -⟩ := (Option.any_eq_true _ _).1 (le_iff_compare.1 h)
  exact isNaN_of_compare ho

theorem exponent_ne {j k : Nat} (hj : j < 2 ^ 11) (hk : k < 2 ^ 11) (h : j ≠ k) :
    BitVec.ofNat 11 j ≠ BitVec.ofNat 11 k := by
  intro he
  apply h
  have he := congrArg BitVec.toNat he
  rwa [BitVec.toNat_ofNat, BitVec.toNat_ofNat, Nat.mod_eq_of_lt hj, Nat.mod_eq_of_lt hk] at he

theorem isNaN_packComponents (s : Sign) {e : BitVec 11} (m : BitVec 52) (he : e ≠ -1#11) :
    (unpack Format.binary64 (packComponents Format.binary64 s e m)).isNaN = false := by
  unfold unpack
  dsimp only
  rw [unpackExponent_packComponents, if_neg he]
  split
  · split <;> rfl
  · rfl

theorem isNaN_unpack_pack (u : UnpackedFloat) :
    (unpack Format.binary64 (pack Format.binary64 u)).isNaN = u.isNaN := by
  cases u with
  | notANumber => rfl
  | infinity s => cases s <;> rfl
  | zero s => cases s <;> rfl
  | finite s m e hm =>
      rw [pack]
      split
      · cases s <;> rfl
      · rename_i hlarge
        have hlt : _ + 1 < 2 ^ 11 := Nat.lt_of_not_le hlarge
        split
        · exact isNaN_packComponents s _ (exponent_ne (k := 2047) (by omega) (by decide) (by omega))
        · exact isNaN_packComponents s _ (by decide)

theorem isNaN_mul {x : Float} (h : x.isNaN = true) (y : Float) : (x * y).isNaN = true := by
  have hx : x.toModel.unpack = .notANumber := eq_notANumber h
  have hmul : mul Format.binary64 .notANumber y.toModel.unpack = .notANumber := by
    cases y.toModel.unpack <;> rfl
  change (unpack Format.binary64 (pack Format.binary64
    (mul Format.binary64 x.toModel.unpack y.toModel.unpack))).isNaN = true
  rw [isNaN_unpack_pack, hx, hmul]
  rfl

end AnswerGrading.FloatBits
