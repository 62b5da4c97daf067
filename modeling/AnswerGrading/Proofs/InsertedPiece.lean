import AnswerGrading.Proofs.UniformAcceptance

/-!
One piece more. Through every step of two greedy runs, one on an answer and one on that answer with a
piece put in, the pieces left differ by one piece, until at some step the longer run takes it in
place of nothing. So the piece wins one fragment at most, and it costs one point at most.
-/

namespace AnswerGrading

variable {α β : Type} {xs ys : List β}

inductive Inserted : List β → List β → Prop where
  | here (x : β) (xs : List β) : Inserted xs (x :: xs)
  | there (y : β) {xs ys : List β} (h : Inserted xs ys) : Inserted (y :: xs) (y :: ys)

theorem inserted_append (before : List β) (x : β) (after : List β) :
    Inserted (before ++ after) (before ++ x :: after) := by
  induction before with
  | nil => exact .here x after
  | cons y before ih => exact ih.there y

theorem Inserted.length_eq (h : Inserted xs ys) : ys.length = xs.length + 1 := by
  induction h with
  | here x xs => rfl
  | there y _ ih => rw [List.length_cons, ih, List.length_cons]

theorem inserted_eraseP (p : β → Bool) (xs : List β) :
    Inserted (xs.eraseP p) xs ∨ xs.eraseP p = xs := by
  induction xs with
  | nil => exact .inr rfl
  | cons y ys ih =>
      by_cases hy : p y = true
      · rw [List.eraseP_cons_of_pos hy]
        exact .inl (.here y ys)
      · rw [List.eraseP_cons_of_neg hy]
        exact ih.imp (·.there y) (congrArg (y :: ·))

theorem Inserted.eraseP (h : Inserted xs ys) (p : β → Bool) :
    Inserted (xs.eraseP p) (ys.eraseP p) ∨ ys.eraseP p = xs.eraseP p := by
  induction h with
  | here x xs =>
      by_cases hx : p x = true
      · rw [List.eraseP_cons_of_pos hx]
        exact (inserted_eraseP p xs).imp_right Eq.symm
      · rw [List.eraseP_cons_of_neg hx]
        exact .inl (.here x _)
  | there y h ih =>
      by_cases hy : p y = true
      · rw [List.eraseP_cons_of_pos hy, List.eraseP_cons_of_pos hy]
        exact .inl h
      · rw [List.eraseP_cons_of_neg hy, List.eraseP_cons_of_neg hy]
        exact ih.imp (·.there y) (congrArg (y :: ·))

theorem Inserted.leftOver (h : Inserted xs ys) (accepts : α → β → Bool) (fs : List α) :
    Inserted (leftOver accepts fs xs) (leftOver accepts fs ys) ∨
      leftOver accepts fs ys = leftOver accepts fs xs := by
  induction fs generalizing xs ys with
  | nil => exact .inl h
  | cons f fs ih =>
      rw [AnswerGrading.leftOver, AnswerGrading.leftOver]
      rcases h.eraseP (accepts f) with hstill | hsame
      · exact ih hstill
      · exact .inr (congrArg (AnswerGrading.leftOver accepts fs) hsame)

theorem Inserted.taken (h : Inserted xs ys) (accepts : α → β → Bool) (fs : List α) :
    taken accepts fs ys = taken accepts fs xs ∨ taken accepts fs ys = taken accepts fs xs + 1 := by
  have hlength := h.length_eq
  have hle := length_leftOver_le accepts fs xs
  rw [AnswerGrading.taken, AnswerGrading.taken]
  rcases h.leftOver accepts fs with hleft | hleft
  · have hleft := hleft.length_eq
    omega
  · rw [hleft]
    omega

/-- With the piece, the credit is as before or moves by one, up while pieces are missing and down
otherwise. -/
theorem credit_insert (fragments pieces : Nat) {matched matched' : Nat}
    (h : matched' = matched ∨ matched' = matched + 1) :
    (credit fragments (pieces + 1) matched' - credit fragments pieces matched).natAbs ≤ 1 ∧
      (pieces < fragments →
        credit fragments pieces matched ≤ credit fragments (pieces + 1) matched') ∧
      (fragments ≤ pieces →
        credit fragments (pieces + 1) matched' ≤ credit fragments pieces matched) := by
  unfold credit
  omega

namespace Specification

variable {σ : Type}

/-- A piece put into an answer is worth one piece taken or none. The points change by one at most:
they never fall while the answer has fewer pieces than there are fragments, and never rise
otherwise. -/
theorem score_insert {b : Specification} (ho : b.flags.anyOrder = true)
    {L L' before after : List (List Char)} {piece : List Char} (hL : L = before ++ after)
    (hL' : L' = before ++ piece :: after) {accepts : Pattern → String → Bool} (e : Engine σ)
    (s s' : σ) (ha : ∀ c ∈ e.handOutCalls b.flags s b.fragments L, c.AnsweredBy accepts)
    (ha' : ∀ c ∈ e.handOutCalls b.flags s' b.fragments L', c.AnsweredBy accepts) :
    ∃ left left', (e.handOut b.flags s b.fragments L).1 = .ok left ∧
      (e.handOut b.flags s' b.fragments L').1 = .ok left' ∧
      let n := b.fragments.length
      let m := L.length - left.length
      let m' := L'.length - left'.length
      let k := anyOrderPoints n L.length left.length
      let k' := anyOrderPoints n L'.length left'.length
      (m' = m ∨ m' = m + 1) ∧ (k' - k).natAbs ≤ 1 ∧ (L.length < n → k ≤ k') ∧
      (n ≤ L.length → k' ≤ k) ∧
      ∀ answer answer', b.answerPieces answer = L → b.answerPieces answer' = L' →
        (b.score e s answer).1 =
          .ok (if b.isDegenerate then 0.0 else Float.ofInt k / Float.ofNat n) ∧
        (b.score e s' answer').1 =
          .ok (if b.isDegenerate then 0.0 else Float.ofInt k' / Float.ofNat n) := by
  have hinserted : Inserted L L' := hL ▸ hL' ▸ inserted_append before piece after
  have hleft := e.handOut_eq_leftOver ha
  have hleft' := e.handOut_eq_leftOver ha'
  have htaken := hinserted.taken (fits accepts b.flags) b.fragments
  obtain ⟨hone, hmissing, hexcess⟩ :=
    credit_insert b.fragments.length L.length htaken
  rw [← hinserted.length_eq, ← anyOrderPoints_leftOver, ← anyOrderPoints_leftOver]
    at hone hmissing hexcess
  refine ⟨_, _, hleft, hleft', htaken, hone, hmissing, hexcess, ?_⟩
  rintro answer answer' rfl rfl
  exact ⟨score_of_handOut ho hleft, score_of_handOut ho hleft'⟩

/-- The piece put in front takes the place of another for the first fragment, which leaves that other
one to the second fragment; the piece in excess takes the point back. -/
theorem score_insert_eitherThenOne :
    eitherThenOne.flags.anyOrder = true ∧
    (∀ c ∈ Engine.regex.handOutCalls eitherThenOne.flags {} eitherThenOne.fragments
      [['b'], ['a']], c.AnsweredBy acceptsOf) ∧
    (∀ c ∈ Engine.regex.handOutCalls eitherThenOne.flags {} eitherThenOne.fragments
      [['a'], ['b'], ['a']], c.AnsweredBy acceptsOf) ∧
    (Engine.regex.handOut eitherThenOne.flags {} eitherThenOne.fragments [['b'], ['a']]).1 =
      .ok [['a']] ∧
    (Engine.regex.handOut eitherThenOne.flags {} eitherThenOne.fragments
      [['a'], ['b'], ['a']]).1 = .ok [['a']] ∧
    anyOrderPoints 2 3 1 ≤ anyOrderPoints 2 2 1 := by
  have ho : eitherThenOne.flags.anyOrder = true := rfl
  have hL : [['b'], ['a']] = [] ++ [['b'], ['a']] := rfl
  have hL' : [['a'], ['b'], ['a']] = [] ++ ['a'] :: [['b'], ['a']] := rfl
  have ha : ∀ c ∈ Engine.regex.handOutCalls eitherThenOne.flags {} eitherThenOne.fragments
      [['b'], ['a']], c.AnsweredBy acceptsOf := by
    decide +kernel
  have ha' : ∀ c ∈ Engine.regex.handOutCalls eitherThenOne.flags {} eitherThenOne.fragments
      [['a'], ['b'], ['a']], c.AnsweredBy acceptsOf := by
    decide +kernel
  have hone : leftOver (fits acceptsOf eitherThenOne.flags) eitherThenOne.fragments
      [['b'], ['a']] = [['a']] := by
    decide +kernel
  have hone' : leftOver (fits acceptsOf eitherThenOne.flags) eitherThenOne.fragments
      [['a'], ['b'], ['a']] = [['a']] := by
    decide +kernel
  obtain ⟨left, left', hleft, hleft', -, -, -, hexcess, -⟩ :=
    score_insert ho hL hL' Engine.regex {} {} ha ha'
  have hx : left = [['a']] := by
    rw [Engine.regex.handOut_eq_leftOver ha] at hleft
    exact (Except.ok.inj hleft).symm.trans hone
  have hx' : left' = [['a']] := by
    rw [Engine.regex.handOut_eq_leftOver ha'] at hleft'
    exact (Except.ok.inj hleft').symm.trans hone'
  rw [hx] at hleft hexcess
  rw [hx'] at hleft' hexcess
  exact ⟨ho, ha, ha', hleft, hleft', hexcess (by decide)⟩

end Specification

end AnswerGrading
