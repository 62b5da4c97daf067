import AnswerGrading.Proofs.WiderExpressions
import AnswerGrading.Regex.Reach
import AnswerGrading.Regex.Search

/-!
Expressions whose matches depend on nothing but positions: no lookaround, no atomic group, no
reference and no conditional. They match stretches of a text as regular expressions do.
-/

namespace AnswerGrading.Regex

namespace Expression

def positional : Expression → Bool
  | .seq e f => e.positional && f.positional
  | .alt e f => e.positional && f.positional
  | .loop _ _ _ e => e.positional
  | .capture _ e => e.positional
  | .look _ _ _ => false
  | .atomic _ => false
  | .reference _ => false
  | .isSet _ => false
  | .branch _ _ _ => false
  | _ => true

/-- From position `i` to position `j`. A loop that admits fewer rounds than it asks for has as many
as it admits. -/
def Matches (text : Array Char) : Expression → Nat → Nat → Prop
  | .empty, i, j => i = j
  | .char s, i, j => (Regular.char s).Matches text i j
  | .anchor a, i, j => (Regular.anchor a).Matches text i j
  | .wordBoundary negated, i, j => i = j ∧ (isWordBoundary text i != negated) = true
  | .seq e f, i, j => ∃ k, e.Matches text i k ∧ f.Matches text k j
  | .alt e f, i, j => e.Matches text i j ∨ f.Matches text i j
  | .loop least most _ e, i, j => ∃ n, (least ≤ n ∨ most = some n) ∧ (∀ m ∈ most, n ≤ m) ∧
      Steps (e.Matches text) n i j
  | .capture _ e, i, j => e.Matches text i j
  | .restart, i, j => i = j
  | .searchStart, i, j => i = j ∧ i = 0
  | .look _ _ _, _, _ => False
  | .atomic _, _, _ => False
  | .reference _, _, _ => False
  | .isSet _, _, _ => False
  | .branch _ _ _, _, _ => False

variable {text : Array Char} {referred : List Nat} {e e' f : Expression} {r : Regular} {i j : Nat}

theorem bind_regular?_eq_some_iff {g : Regular → Regular → Regular} :
    (do return g (← e.regular? referred) (← f.regular? referred)) = some r ↔
      ∃ p q, e.regular? referred = some p ∧ f.regular? referred = some q ∧ r = g p q := by
  cases e.regular? referred with
  | none => simp
  | some p =>
      cases f.regular? referred with
      | none => simp
      | some q => simp [eq_comm]

theorem positional_of_regular? (hr : e.regular? referred = some r) : e.positional = true := by
  induction e generalizing r with
  | empty => rfl
  | char => rfl
  | anchor => rfl
  | seq e f ihe ihf =>
      obtain ⟨p, q, hp, hq, -⟩ := bind_regular?_eq_some_iff.1 hr
      simp [positional, ihe hp, ihf hq]
  | alt e f ihe ihf =>
      obtain ⟨p, q, hp, hq, -⟩ := bind_regular?_eq_some_iff.1 hr
      simp [positional, ihe hp, ihf hq]
  | loop least most greedy e ih =>
      cases he : e.regular? referred with
      | none => simp [regular?, he] at hr
      | some p => exact ih he
  | capture g e ih =>
      rw [regular?] at hr
      split at hr
      · cases hr
      · exact ih hr
  | _ => cases hr

theorem matches_iff_of_regular? (hr : e.regular? referred = some r) (hs : r.Sound = true) :
    e.Matches text i j ↔ r.Matches text i j := by
  induction e generalizing r i j with
  | empty => cases hr; rfl
  | char => cases hr; rfl
  | anchor => cases hr; rfl
  | seq e f ihe ihf =>
      obtain ⟨p, q, hp, hq, rfl⟩ := bind_regular?_eq_some_iff.1 hr
      rw [Regular.Sound, Bool.and_eq_true] at hs
      simp only [Matches, Regular.Matches, ihe hp hs.1, ihf hq hs.2]
  | alt e f ihe ihf =>
      obtain ⟨p, q, hp, hq, rfl⟩ := bind_regular?_eq_some_iff.1 hr
      rw [Regular.Sound, Bool.and_eq_true] at hs
      simp only [Matches, Regular.Matches, ihe hp hs.1, ihf hq hs.2]
  | loop least most greedy e ih =>
      cases he : e.regular? referred with
      | none => simp [regular?, he] at hr
      | some p =>
          simp only [regular?, he, bind, Option.bind, pure, Option.some.injEq] at hr
          subst hr
          rw [Regular.Sound, Bool.and_eq_true] at hs
          have hrel : e.Matches text = p.Matches text :=
            funext fun i => funext fun j => propext (ih he hs.2)
          simp only [Matches, Regular.Matches, hrel]
          refine exists_congr fun n => ?_
          rw [← and_assoc, ← and_assoc]
          refine and_congr_left fun _ => ?_
          constructor
          · rintro ⟨hl | rfl, hm⟩
            · exact ⟨hl, hm⟩
            · exact ⟨by simpa using hs.1, hm⟩
          · rintro ⟨hl, hm⟩
            exact ⟨.inl hl, hm⟩
  | capture g e ih =>
      rw [regular?] at hr
      split at hr
      · cases hr
      · exact ih hr hs
  | _ => cases hr

theorem position_le (h : e.Matches text i j) (hi : i ≤ text.size) : j ≤ text.size := by
  induction e generalizing i j with
  | empty => cases h; exact hi
  | char s =>
      obtain ⟨rfl, c, hc, -⟩ := h
      exact (Array.getElem?_eq_some_iff.1 hc).1
  | anchor a => cases h.1; exact hi
  | wordBoundary negated => cases h.1; exact hi
  | seq e f ihe ihf =>
      obtain ⟨k, hk, hj⟩ := h
      exact ihf hj (ihe hk hi)
  | alt e f ihe ihf => exact h.elim (ihe · hi) (ihf · hi)
  | loop least most greedy e ih =>
      obtain ⟨n, -, -, hs⟩ := h
      exact steps_closed (S := (· ≤ text.size)) (fun _ _ hi hr => ih hr hi) hi hs
  | capture g e ih => exact ih h hi
  | restart => cases h; exact hi
  | searchStart => cases h.1; exact hi
  | _ => cases h

theorem Steps.length_eq {R : Nat → Nat → Prop} {size : Nat} (h : ∀ i j, R i j → j = i + size)
    {n i j : Nat} (hs : Steps R n i j) : j = i + size * n := by
  induction n generalizing i with
  | zero => exact hs.symm
  | succ n ih =>
      obtain ⟨k, hk, hs⟩ := hs
      rw [ih hs, h i k hk, Nat.mul_succ]
      omega

theorem length_eq_of_fixedSize (hp : e.positional = true) (hf : e.fixedSize = true)
    (h : e.Matches text i j) : j = i + e.minSize := by
  induction e generalizing i j with
  | empty => exact h.symm
  | char => exact h.1
  | anchor => exact h.1.symm
  | wordBoundary => exact h.1.symm
  | seq e f ihe ihf =>
      simp only [positional, fixedSize, Bool.and_eq_true] at hp hf
      obtain ⟨k, hk, hj⟩ := h
      rw [ihf hp.2 hf.2 hj, ihe hp.1 hf.1 hk, minSize, Nat.add_assoc]
  | alt e f ihe ihf =>
      simp only [positional, fixedSize, Bool.and_eq_true, beq_iff_eq] at hp hf
      rw [minSize, ← hf.2, Nat.min_self]
      rcases h with h | h
      · exact ihe hp.1 hf.1.1 h
      · rw [hf.2]
        exact ihf hp.2 hf.1.2 h
  | loop least most greedy e ih =>
      simp only [positional, fixedSize, Bool.and_eq_true, beq_iff_eq] at hp hf
      obtain ⟨n, hl, hm, hs⟩ := h
      obtain rfl : n = least := by
        have hle := hm least hf.2
        rcases hl with hl | hl
        · exact Nat.le_antisymm hle hl
        · exact (Option.some.inj (hf.2.symm.trans hl)).symm
      exact Steps.length_eq (fun i j => ih hp hf.1) hs
  | capture g e ih => exact ih hp hf h
  | restart => exact h.symm
  | searchStart => exact h.1.symm
  | _ => cases h

theorem spread_of_positional (hp : e.positional = true) : e.spread = e := by
  induction e with
  | seq e f ihe ihf =>
      rw [positional, Bool.and_eq_true] at hp
      rw [spread, ihe hp.1, ihf hp.2]
  | alt e f ihe ihf =>
      rw [positional, Bool.and_eq_true] at hp
      rw [spread, ihe hp.1, ihf hp.2]
  | loop least most greedy e ih => rw [spread, ih hp]
  | capture g e ih => rw [spread, ih hp]
  | look => cases hp
  | atomic => cases hp
  | branch => cases hp
  | _ => rfl

namespace Wider

theorem positional_eq (h : e.Wider e') : e'.positional = e.positional := by
  induction h with
  | seq _ _ ihe ihf => rw [positional, positional, ihe, ihf]
  | alt _ _ ihe ihf => rw [positional, positional, ihe, ihf]
  | loop _ _ _ _ ih => exact ih
  | capture _ _ ih => exact ih
  | _ => rfl

theorem matches_mono (h : e.Wider e') {i j : Nat} (hm : e.Matches text i j) :
    e'.Matches text i j := by
  induction h generalizing i j with
  | refl => exact hm
  | char h => exact (Regular.Covers.char h).mono hm
  | run h greedy =>
      exact ⟨1, .inl (Nat.le_refl 1), nofun, j, (Regular.Covers.char h).mono hm, rfl⟩
  | seq _ _ ihe ihf =>
      obtain ⟨k, hk, hj⟩ := hm
      exact ⟨k, ihe hk, ihf hj⟩
  | alt _ _ ihe ihf => exact hm.imp ihe ihf
  | loop _ _ _ _ ih =>
      obtain ⟨n, hl, hn, hs⟩ := hm
      exact ⟨n, hl, hn, hs.mono fun _ _ => ih⟩
  | capture _ _ ih => exact ih hm
  | look => cases hm
  | atomic => cases hm

theorem minSize_eq (h : e.Wider e') : e'.minSize = e.minSize := by
  induction h with
  | seq _ _ ihe ihf => rw [minSize, minSize, ihe, ihf]
  | alt _ _ ihe ihf => rw [minSize, minSize, ihe, ihf]
  | loop _ _ _ _ ih => rw [minSize, minSize, ih]
  | capture _ _ ih => exact ih
  | atomic _ ih => exact ih
  | _ => rfl

theorem fixedSize_of (h : e.Wider e') (hp : e.positional = true) (hf : e'.fixedSize = true) :
    e.fixedSize = true := by
  induction h with
  | refl => exact hf
  | char => rfl
  | run => rfl
  | seq _ _ ihe ihf =>
      simp only [positional, fixedSize, Bool.and_eq_true] at hp hf ⊢
      exact ⟨ihe hp.1 hf.1, ihf hp.2 hf.2⟩
  | alt he hf' ihe ihf =>
      simp only [positional, fixedSize, Bool.and_eq_true, beq_iff_eq] at hp hf ⊢
      exact ⟨⟨ihe hp.1 hf.1.1, ihf hp.2 hf.1.2⟩, he.minSize_eq ▸ hf'.minSize_eq ▸ hf.2⟩
  | loop _ _ _ _ ih =>
      simp only [fixedSize, Bool.and_eq_true] at hf ⊢
      exact ⟨ih hp hf.1, hf.2⟩
  | capture _ _ ih => exact ih hp hf
  | look => rfl
  | atomic _ ih => cases hp

theorem isSome_bind_congr {α : Type} {x x' y y' : Option α} {g : α → α → α}
    (hx : x'.isSome = x.isSome) (hy : y'.isSome = y.isSome) :
    (do return g (← x') (← y')).isSome = (do return g (← x) (← y)).isSome := by
  cases x <;> cases x' <;> cases y <;> cases y' <;> simp_all

theorem isSome_regular? (h : e.Wider e') (referred : List Nat) :
    (e'.regular? referred).isSome = (e.regular? referred).isSome := by
  induction h with
  | seq _ _ ihe ihf => exact isSome_bind_congr ihe ihf
  | alt _ _ ihe ihf => exact isSome_bind_congr ihe ihf
  | @loop e e' _ _ _ _ ih =>
      simp only [Expression.regular?]
      revert ih
      cases e.regular? referred <;> cases e'.regular? referred <;> simp
  | capture _ _ ih =>
      rw [Expression.regular?, Expression.regular?]
      split
      · rfl
      · exact ih
  | _ => rfl

end Wider

end Expression

end AnswerGrading.Regex
