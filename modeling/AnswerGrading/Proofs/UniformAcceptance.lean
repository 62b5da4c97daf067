import AnswerGrading.Proofs.LargestAssignment

/-!
Bodies whose fragments do not compete unevenly: two fragments with a piece in common accept the same
pieces. Greedy assignment is then a largest one, and neither the order of the fragments nor that of
the pieces changes a score.
-/

namespace AnswerGrading

variable {α β : Type} {accepts : α → β → Bool} {f : α} {x : β} {fs gs : List α} {pieces rest : List β}

def Uniform (accepts : α → β → Bool) (fs : List α) (pieces : List β) : Prop :=
  ∀ f ∈ fs, ∀ g ∈ fs, (∃ x ∈ pieces, accepts f x = true ∧ accepts g x = true) →
    ∀ y ∈ pieces, accepts f y = accepts g y

instance (accepts : α → β → Bool) (fs : List α) (pieces : List β) :
    Decidable (Uniform accepts fs pieces) :=
  inferInstanceAs (Decidable (∀ f ∈ fs, ∀ g ∈ fs, _ → ∀ y ∈ pieces, accepts f y = accepts g y))

theorem Uniform.mono (h : Uniform accepts gs rest) (hf : fs ⊆ gs) (hp : pieces ⊆ rest) :
    Uniform accepts fs pieces := by
  rintro f hfs g hgs ⟨x, hx, hfx, hgx⟩ y hy
  exact h f (hf hfs) g (hf hgs) ⟨x, hp hx, hfx, hgx⟩ y (hp hy)

namespace Assignment

/-- A fragment may take any piece it accepts: whoever has that piece is content with the one that the
fragment had. -/
theorem exists_exchange (A : Assignment accepts (f :: fs) (x :: pieces)) (h : accepts f x = true)
    (hu : Uniform accepts (f :: fs) (x :: pieces)) :
    ∃ B : Assignment accepts fs pieces, A.size ≤ B.size + 1 := by
  rcases A.fragment_cases with ⟨B, hB⟩ | ⟨y, rest, hy, hrest, B, hB⟩
  · obtain ⟨C, hC⟩ := B.exists_dropPiece
    exact ⟨C, hB ▸ hC⟩
  rcases List.mem_cons.1 (hrest.subset (List.mem_cons_self ..)) with rfl | hx
  · have hpieces : rest.Perm pieces := hrest.symm.cons_inv
    exact ⟨B.widen (List.Subperm.refl fs) hpieces.subperm, hB.le⟩
  obtain ⟨others, hothers, -⟩ :=
    exists_perm_cons_of_subperm (List.singleton_subperm_iff.2 hx)
  have hpieces : (y :: others).Perm pieces := by
    have hswap : (x :: pieces).Perm (x :: y :: others) :=
      hrest.trans ((hothers.cons y).trans (List.Perm.swap ..))
    exact hswap.symm.cons_inv
  rcases (B.widen (List.Subperm.refl fs) hothers.subperm).piece_cases with
    ⟨C, hC⟩ | ⟨g, gs, hg, hgs, C, hC⟩
  · have hsub : others.Subperm pieces :=
      (List.sublist_cons_self y others).subperm.trans hpieces.subperm
    refine ⟨C.widen (List.Subperm.refl fs) hsub, ?_⟩
    exact hB.le.trans (Nat.add_le_add_right hC.ge 1)
  · -- `g` had `x`, which `f` accepts as well, so that `g` can have `y`
    have hgfs : g ∈ fs := hgs.symm.subset (List.mem_cons_self ..)
    have hymem : y ∈ pieces := hpieces.subset (List.mem_cons_self ..)
    have hgy : accepts g y = true := by
      rw [← hu f (List.mem_cons_self ..) g (List.mem_cons_of_mem f hgfs)
        ⟨x, List.mem_cons_self .., h, hg⟩ y (List.mem_cons_of_mem x hymem)]
      exact hy
    refine ⟨(C.cons hgy).widen hgs.symm.subperm hpieces.subperm, ?_⟩
    exact hB.le.trans (Nat.add_le_add_right hC.le 1)

theorem size_le_taken (A : Assignment accepts fs pieces) (hu : Uniform accepts fs pieces) :
    A.size ≤ taken accepts fs pieces := by
  induction fs generalizing pieces with
  | nil => exact Nat.le_trans A.size_le_fragments (Nat.zero_le _)
  | cons f fs ih =>
      have hfs : fs ⊆ f :: fs := List.subset_cons_self f fs
      rcases eraseP_cases (accepts f) pieces with ⟨x, hx, hp⟩ | ⟨hnone, he⟩
      · have hcons := hu.mono (List.Subset.refl _) hp.symm.subset
        obtain ⟨B, hB⟩ := (A.widen (List.Subperm.refl _) hp.subperm).exists_exchange hx hcons
        have hsize : A.size ≤ B.size + 1 := hB
        have htaken := ih B (hu.mono hfs List.eraseP_subset)
        rw [taken_cons_of_perm hp]
        omega
      · obtain ⟨B, hB⟩ := A.exists_of_refused hnone
        rw [taken_cons_of_eq he, ← hB]
        exact ih B (hu.mono hfs (List.Subset.refl _))

end Assignment

theorem isGreatest_taken (hu : Uniform accepts fs pieces) :
    IsGreatest (sizes accepts fs pieces) (taken accepts fs pieces) := by
  refine ⟨exists_greedy accepts fs pieces, ?_⟩
  rintro _ ⟨A, rfl⟩
  exact A.size_le_taken hu

theorem sizes_subset (hf : fs.Perm gs) (hp : pieces.Perm rest) :
    sizes accepts fs pieces ⊆ sizes accepts gs rest := by
  rintro _ ⟨A, rfl⟩
  exact ⟨A.widen hf.subperm hp.subperm, rfl⟩

theorem taken_perm (hu : Uniform accepts fs pieces) (hf : gs.Perm fs) (hp : rest.Perm pieces) :
    taken accepts gs rest = taken accepts fs pieces := by
  have hsizes : sizes accepts gs rest = sizes accepts fs pieces :=
    Set.Subset.antisymm (sizes_subset hf hp) (sizes_subset hf.symm hp.symm)
  have hgreatest := isGreatest_taken (hu.mono hf.subset hp.subset)
  rw [hsizes] at hgreatest
  exact hgreatest.unique (isGreatest_taken hu)

namespace Specification

variable {σ : Type} {b b' : Specification} {L L' : List (List Char)}

theorem isDegenerate_iff : b.isDegenerate = true ↔ b.fragments = [""] := by
  simp [isDegenerate, fragments]

theorem isDegenerate_of_perm (h : b'.fragments.Perm b.fragments) :
    b'.isDegenerate = b.isDegenerate := by
  rw [Bool.eq_iff_iff, isDegenerate_iff, isDegenerate_iff]
  constructor
  · intro hb
    exact List.perm_singleton.1 (hb ▸ h.symm)
  · intro hb
    exact List.perm_singleton.1 (hb ▸ h)

/-- Where fragments with a piece in common accept the same pieces, scoring takes as many pieces as
any assignment, and neither the order of the pieces nor that of the fragments changes the score. -/
theorem score_perm (ho : b.flags.anyOrder = true) (hflags : b'.flags = b.flags)
    (hf : b'.fragments.Perm b.fragments) (hL : L'.Perm L) {accepts : Pattern → String → Bool}
    (hu : Uniform (fits accepts b.flags) b.fragments L) (e : Engine σ) (s s' : σ)
    (ha : ∀ c ∈ e.handOutCalls b.flags s b.fragments L, c.AnsweredBy accepts)
    (ha' : ∀ c ∈ e.handOutCalls b'.flags s' b'.fragments L', c.AnsweredBy accepts) :
    ∃ left left', (e.handOut b.flags s b.fragments L).1 = .ok left ∧
      (e.handOut b'.flags s' b'.fragments L').1 = .ok left' ∧
      IsGreatest (sizes (fits accepts b.flags) b.fragments L) (L.length - left.length) ∧
      L'.length - left'.length = L.length - left.length ∧
      ∀ answer answer', b.answerPieces answer = L → b'.answerPieces answer' = L' →
        (b'.score e s' answer').1 = (b.score e s answer).1 := by
  have hfits : fits accepts b'.flags = fits accepts b.flags := by rw [hflags]
  have hleft := e.handOut_eq_leftOver ha
  have hleft' := e.handOut_eq_leftOver ha'
  have htaken := taken_perm hu hf hL
  have hlength : (leftOver (fits accepts b.flags) b'.fragments L').length =
      (leftOver (fits accepts b.flags) b.fragments L).length := by
    rw [length_leftOver, length_leftOver, htaken, hL.length_eq]
  rw [hfits] at hleft'
  refine ⟨_, _, hleft, hleft', isGreatest_taken hu, htaken, ?_⟩
  rintro answer answer' rfl rfl
  have ho' : b'.flags.anyOrder = true := hflags ▸ ho
  rw [score_of_handOut ho hleft, score_of_handOut ho' hleft', isDegenerate_of_perm hf,
    hL.length_eq, hlength, share, share, hf.length_eq]

def twoOfThree : Specification where
  first := "a|b"
  others := ["c", "[ab]"]
  flags := { anyOrder := true }

def twoOfThreeTurned : Specification where
  first := "[ab]"
  others := ["a|b", "c"]
  flags := { anyOrder := true }

theorem score_perm_twoOfThree :
    twoOfThree.flags.anyOrder = true ∧
    twoOfThreeTurned.flags = twoOfThree.flags ∧
    twoOfThreeTurned.fragments.Perm twoOfThree.fragments ∧
    [['c'], ['b'], ['x'], ['a']].Perm [['a'], ['x'], ['b'], ['c']] ∧
    Uniform (fits acceptsOf twoOfThree.flags) twoOfThree.fragments
      [['a'], ['x'], ['b'], ['c']] ∧
    (∀ c ∈ Engine.regex.handOutCalls twoOfThree.flags {} twoOfThree.fragments
      [['a'], ['x'], ['b'], ['c']], c.AnsweredBy acceptsOf) ∧
    (∀ c ∈ Engine.regex.handOutCalls twoOfThreeTurned.flags {} twoOfThreeTurned.fragments
      [['c'], ['b'], ['x'], ['a']], c.AnsweredBy acceptsOf) ∧
    IsGreatest (sizes (fits acceptsOf twoOfThree.flags) twoOfThree.fragments
      [['a'], ['x'], ['b'], ['c']]) 3 ∧
    (twoOfThreeTurned.score Engine.regex {} "c\nb\nx\na").1 =
      (twoOfThree.score Engine.regex {} "a\nx\nb\nc").1 := by
  have ho : twoOfThree.flags.anyOrder = true := rfl
  have hflags : twoOfThreeTurned.flags = twoOfThree.flags := rfl
  have hf : twoOfThreeTurned.fragments.Perm twoOfThree.fragments := by decide
  have hL : [['c'], ['b'], ['x'], ['a']].Perm [['a'], ['x'], ['b'], ['c']] := by decide
  have hu : Uniform (fits acceptsOf twoOfThree.flags) twoOfThree.fragments
      [['a'], ['x'], ['b'], ['c']] := by
    decide +kernel
  have ha : ∀ c ∈ Engine.regex.handOutCalls twoOfThree.flags {} twoOfThree.fragments
      [['a'], ['x'], ['b'], ['c']], c.AnsweredBy acceptsOf := by
    decide +kernel
  have ha' : ∀ c ∈ Engine.regex.handOutCalls twoOfThreeTurned.flags {} twoOfThreeTurned.fragments
      [['c'], ['b'], ['x'], ['a']], c.AnsweredBy acceptsOf := by
    decide +kernel
  have hone : leftOver (fits acceptsOf twoOfThree.flags) twoOfThree.fragments
      [['a'], ['x'], ['b'], ['c']] = [['x']] := by
    decide +kernel
  obtain ⟨left, _, hleft, -, hgreatest, -, hscore⟩ :=
    score_perm ho hflags hf hL hu Engine.regex {} {} ha ha'
  have hx : left = [['x']] := by
    rw [Engine.regex.handOut_eq_leftOver ha, hone] at hleft
    exact (Except.ok.inj hleft).symm
  rw [hx] at hgreatest
  exact ⟨ho, hflags, hf, hL, hu, ha, ha', hgreatest, hscore _ _ (by decide) (by decide)⟩

end Specification

end AnswerGrading
