import AnswerGrading.Regex.Reader
import Mathlib.Data.List.Forall2

/-!
Expressions in which single characters have been widened to larger sets, or to one or more characters
of them. The wider expression is regular if the other one is, and matches wherever that one does.
-/

namespace AnswerGrading.Regex

theorem Steps.mono {R S : Nat → Nat → Prop} (h : ∀ i j, R i j → S i j) {n i j : Nat}
    (hs : Steps R n i j) : Steps S n i j := by
  induction n generalizing i with
  | zero => exact hs
  | succ n ih =>
      obtain ⟨k, hk, hs⟩ := hs
      exact ⟨k, h i k hk, ih hs⟩

def CharSet.Within (s t : CharSet) : Prop :=
  ∀ c, s.mem c = true → t.mem c = true

namespace CharSet.Within

variable {s t u v : CharSet}

theorem refl (s : CharSet) : s.Within s :=
  fun _ => id

theorem trans (h : s.Within t) (h' : t.Within u) : s.Within u :=
  fun c hc => h' c (h c hc)

theorem union (h : s.Within t) (h' : u.Within v) :
    (CharSet.union s u).Within (.union t v) := by
  intro c hc
  rw [mem_union, Bool.or_eq_true] at hc ⊢
  exact hc.imp (h c) (h' c)

theorem union_right (h : s.Within t) (u : CharSet) : s.Within (.union t u) := by
  intro c hc
  rw [mem_union, Bool.or_eq_true]
  exact .inl (h c hc)

theorem one {c : Char} (h : s.mem c = true) : (CharSet.one c).Within s := by
  intro d hd
  rw [mem_one, beq_iff_eq] at hd
  rw [hd]
  exact h

theorem span (a : Char) {b c : Char} (h : b ≤ c) : (CharSet.span a b).Within (.span a c) := by
  intro d hd
  simp only [mem, Bool.and_eq_true, decide_eq_true_eq] at hd ⊢
  exact ⟨hd.1, Char.le_trans hd.2 h⟩

theorem foldedIf (h : s.Within t) (caseless : Bool) :
    (s.foldedIf caseless).Within (t.foldedIf caseless) := by
  cases caseless with
  | false => exact h
  | true =>
      intro c hc
      simp only [CharSet.foldedIf, if_true, CharSet.mem, Bool.or_eq_true, List.any_eq_true] at hc ⊢
      rcases hc with hc | ⟨d, hd, hmem⟩
      · exact .inl (h c hc)
      · exact .inr ⟨d, hd, h d hmem⟩

end CharSet.Within

structure Regular.Covers (r' r : Regular) : Prop where
  sound : r.Sound = true → r'.Sound = true
  mono : ∀ {text : Array Char} {i j : Nat}, r.Matches text i j → r'.Matches text i j

namespace Regular.Covers

theorem refl (r : Regular) : r.Covers r :=
  ⟨id, id⟩

variable {r r' s s' : Regular}

theorem seq (hr : r'.Covers r) (hs : s'.Covers s) :
    (Regular.seq r' s').Covers (.seq r s) where
  sound h := by
    rw [Regular.Sound, Bool.and_eq_true] at h ⊢
    exact ⟨hr.sound h.1, hs.sound h.2⟩
  mono := by
    rintro text i j ⟨k, hi, hj⟩
    exact ⟨k, hr.mono hi, hs.mono hj⟩

theorem alt (hr : r'.Covers r) (hs : s'.Covers s) :
    (Regular.alt r' s').Covers (.alt r s) where
  sound h := by
    rw [Regular.Sound, Bool.and_eq_true] at h ⊢
    exact ⟨hr.sound h.1, hs.sound h.2⟩
  mono h := h.imp hr.mono hs.mono

theorem loop (hr : r'.Covers r) (least : Nat) (most : Option Nat) (greedy : Bool) :
    (Regular.loop least most greedy r').Covers (.loop least most greedy r) where
  sound h := by
    rw [Regular.Sound, Bool.and_eq_true] at h ⊢
    exact ⟨h.1, hr.sound h.2⟩
  mono := by
    rintro text i j ⟨n, hl, hm, hs⟩
    exact ⟨n, hl, hm, hs.mono fun _ _ => hr.mono⟩

theorem char {s t : CharSet} (h : s.Within t) : (Regular.char t).Covers (.char s) where
  sound _ := rfl
  mono := by
    rintro text i j ⟨rfl, c, hc, hs⟩
    exact ⟨rfl, c, hc, h c hs⟩

theorem run {s t : CharSet} (h : s.Within t) (greedy : Bool) :
    (Regular.loop 1 none greedy (.char t)).Covers (.char s) where
  sound _ := rfl
  mono hm := ⟨1, Nat.le_refl 1, nofun, _, (char h).mono hm, rfl⟩

end Regular.Covers

namespace Expression

inductive Wider : Expression → Expression → Prop
  | refl (e : Expression) : Wider e e
  | char {s t : CharSet} (h : s.Within t) : Wider (.char s) (.char t)
  | run {s t : CharSet} (h : s.Within t) (greedy : Bool) :
      Wider (.char s) (.loop 1 none greedy (.char t))
  | seq {e e' f f' : Expression} : Wider e e' → Wider f f' → Wider (.seq e f) (.seq e' f')
  | alt {e e' f f' : Expression} : Wider e e' → Wider f f' → Wider (.alt e f) (.alt e' f')
  | loop {e e' : Expression} (least : Nat) (most : Option Nat) (greedy : Bool) :
      Wider e e' → Wider (.loop least most greedy e) (.loop least most greedy e')
  | capture {e e' : Expression} (group : Nat) :
      Wider e e' → Wider (.capture group e) (.capture group e')
  | look {e e' : Expression} (behind negated : Bool) :
      Wider e e' → Wider (.look behind negated e) (.look behind negated e')
  | atomic {e e' : Expression} : Wider e e' → Wider (.atomic e) (.atomic e')

namespace Wider

variable {e e' f f' : Expression}

theorem eq_empty_iff (h : Wider e e') : e' = .empty ↔ e = .empty := by
  cases h <;> simp

theorem repeatable (h : Wider e e') : e'.repeatable = e.repeatable := by
  cases h <;> rfl

theorem alone (h : Wider e e') : Wider e.alone e'.alone := by
  cases h with
  | alt he hf => exact .seq (.alt he hf) (.refl .empty)
  | refl => exact .refl _
  | char h => exact .char h
  | run h greedy => exact .run h greedy
  | seq he hf => exact .seq he hf
  | loop least most greedy he => exact .loop least most greedy he
  | capture group he => exact .capture group he
  | look behind negated he => exact .look behind negated he
  | atomic he => exact .atomic he

theorem sequence {es es' : List Expression} (h : List.Forall₂ Wider es es') :
    Wider (sequence es) (sequence es') := by
  induction h with
  | nil => exact .refl .empty
  | cons he hes ih =>
      cases hes with
      | nil => exact he
      | cons hf hfs => exact .seq he ih

theorem choice {es es' : List Expression} (he : Wider e e') (h : List.Forall₂ Wider es es') :
    Wider (choice e es) (choice e' es') := by
  induction h generalizing e e' with
  | nil => exact he
  | cons hf hfs ih => exact .alt he (ih hf)

theorem regular? (h : Wider e e') (referred : List Nat) {r : Regular}
    (hr : e.regular? referred = some r) :
    ∃ r', e'.regular? referred = some r' ∧ r'.Covers r := by
  induction h generalizing r with
  | refl e => exact ⟨r, hr, .refl r⟩
  | @char s t h =>
      cases hr
      exact ⟨.char t, rfl, .char h⟩
  | @run s t h greedy =>
      cases hr
      exact ⟨.loop 1 none greedy (.char t), rfl, .run h greedy⟩
  | seq _ _ ihe ihf =>
      simp only [Expression.regular?, bind, Option.bind_eq_some_iff, pure, Option.some.injEq] at hr
      obtain ⟨p, hp, q, hq, rfl⟩ := hr
      obtain ⟨p', hp', hpc⟩ := ihe hp
      obtain ⟨q', hq', hqc⟩ := ihf hq
      exact ⟨.seq p' q', by simp [Expression.regular?, hp', hq'], hpc.seq hqc⟩
  | alt _ _ ihe ihf =>
      simp only [Expression.regular?, bind, Option.bind_eq_some_iff, pure, Option.some.injEq] at hr
      obtain ⟨p, hp, q, hq, rfl⟩ := hr
      obtain ⟨p', hp', hpc⟩ := ihe hp
      obtain ⟨q', hq', hqc⟩ := ihf hq
      exact ⟨.alt p' q', by simp [Expression.regular?, hp', hq'], hpc.alt hqc⟩
  | loop least most greedy _ ih =>
      simp only [Expression.regular?, bind, Option.bind_eq_some_iff, pure, Option.some.injEq] at hr
      obtain ⟨p, hp, rfl⟩ := hr
      obtain ⟨p', hp', hpc⟩ := ih hp
      exact ⟨.loop least most greedy p', by simp [Expression.regular?, hp'],
        hpc.loop least most greedy⟩
  | capture group _ ih =>
      rw [Expression.regular?] at hr ⊢
      split at hr
      · cases hr
      · rename_i hg
        rw [if_neg hg]
        exact ih hr
  | look behind negated _ _ => cases hr
  | atomic _ _ => cases hr

end Wider

end Expression

structure Level.Wider (l l' : Level) : Prop where
  alternatives : List.Forall₂ Expression.Wider l.alternatives l'.alternatives
  pieces : List.Forall₂ Expression.Wider l.pieces l'.pieces

namespace Level.Wider

variable {l l' : Level}

theorem refl (l : Level) : l.Wider l :=
  ⟨List.forall₂_same.2 fun e _ => .refl e, List.forall₂_same.2 fun e _ => .refl e⟩

theorem sequence (h : l.Wider l') :
    Expression.Wider (.sequence l.pieces.reverse) (.sequence l'.pieces.reverse) :=
  .sequence (List.forall₂_reverse_iff.2 h.pieces)

theorem push {e e' : Expression} (he : e.Wider e') (h : l.Wider l') :
    (l.push e).Wider (l'.push e') := by
  unfold Level.push
  by_cases hempty : e = .empty
  · rw [if_pos hempty, if_pos (he.eq_empty_iff.2 hempty)]
    exact h
  · rw [if_neg hempty, if_neg fun hempty' => hempty (he.eq_empty_iff.1 hempty')]
    exact ⟨h.alternatives, .cons he h.pieces⟩

theorem bar (h : l.Wider l') : l.bar.Wider l'.bar :=
  ⟨.cons h.sequence h.alternatives, .nil⟩

theorem alternatives_eq_nil_iff (h : l.Wider l') :
    l'.alternatives = [] ↔ l.alternatives = [] := by
  rw [← List.length_eq_zero_iff, ← List.length_eq_zero_iff, h.alternatives.length_eq]

theorem body (h : l.Wider l') : l.body.Wider l'.body := by
  have halternatives := List.forall₂_reverse_iff.2 h.alternatives
  unfold Level.body
  revert halternatives
  cases l.alternatives.reverse with
  | nil =>
      intro ha
      rw [List.forall₂_nil_left_iff.1 ha]
      exact h.sequence
  | cons e es =>
      intro ha
      obtain ⟨e', es', he, hes, hl⟩ := List.forall₂_cons_left_iff.1 ha
      rw [hl]
      exact .choice he (List.rel_append hes (.cons h.sequence.alone .nil))

end Level.Wider

end AnswerGrading.Regex
