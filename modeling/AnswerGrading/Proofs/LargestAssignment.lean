import AnswerGrading.Proofs.GreedyAssignment
import Mathlib.Data.List.Perm.Subperm
import Mathlib.Order.Bounds.Basic
import Mathlib.Order.Lattice.Nat

/-!
Greedy assignment against the best one. An assignment uses no fragment and no piece more often than
it occurs. Greedy assignment takes at least half as many pieces as the largest one.
-/

namespace AnswerGrading

variable {α β : Type} {accepts : α → β → Bool} {f : α} {x : β} {fs gs : List α} {pieces rest : List β}

/-- Fragments with a piece each that they accept. -/
structure Assignment (accepts : α → β → Bool) (fs : List α) (pieces : List β) where
  pairs : List (α × β)
  fst_subperm : (pairs.map Prod.fst).Subperm fs
  snd_subperm : (pairs.map Prod.snd).Subperm pieces
  accepted : ∀ p ∈ pairs, accepts p.1 p.2 = true

theorem exists_perm_cons_of_subperm {γ : Type} {a : γ} {as l : List γ} (h : (a :: as).Subperm l) :
    ∃ rest, l.Perm (a :: rest) ∧ as.Subperm rest := by
  obtain ⟨s, t, rfl⟩ := List.append_of_mem (h.subset (List.mem_cons_self ..))
  have hp : (s ++ a :: t).Perm (a :: (s ++ t)) := List.perm_middle
  exact ⟨s ++ t, hp, (List.subperm_cons a).1 (h.trans hp.subperm)⟩

theorem subperm_map_cons_cases {γ δ : Type} {g : γ → δ} {xs : List γ} {a : δ} {l : List δ}
    (h : (xs.map g).Subperm (a :: l)) :
    (xs.map g).Subperm l ∨
      ∃ y ys, xs.Perm (y :: ys) ∧ g y = a ∧ (ys.map g).Subperm l := by
  obtain ⟨as, hperm, hsub⟩ := h
  cases hsub with
  | cons _ hsub => exact .inl ⟨as, hperm, hsub⟩
  | cons_cons _ hsub =>
      rename_i bs
      obtain ⟨y, hy, rfl⟩ := List.mem_map.1 (hperm.subset (List.mem_cons_self ..))
      obtain ⟨s, t, rfl⟩ := List.append_of_mem hy
      have hys : (s ++ y :: t).Perm (y :: (s ++ t)) := List.perm_middle
      have hbs : bs.Perm ((s ++ t).map g) := (hperm.trans (hys.map g)).cons_inv
      exact .inr ⟨y, s ++ t, hys, rfl, bs, hbs, hsub⟩

namespace Assignment

def size (A : Assignment accepts fs pieces) : Nat :=
  A.pairs.length

def Perfect (A : Assignment accepts fs pieces) : Prop :=
  (A.pairs.map Prod.fst).Perm fs ∧ (A.pairs.map Prod.snd).Perm pieces

def empty : Assignment accepts fs pieces where
  pairs := []
  fst_subperm := List.nil_subperm
  snd_subperm := List.nil_subperm
  accepted _ hp := nomatch hp

def cons (A : Assignment accepts fs pieces) (h : accepts f x = true) :
    Assignment accepts (f :: fs) (x :: pieces) where
  pairs := (f, x) :: A.pairs
  fst_subperm := (List.subperm_cons f).2 A.fst_subperm
  snd_subperm := (List.subperm_cons x).2 A.snd_subperm
  accepted := List.forall_mem_cons.2 ⟨h, A.accepted⟩

def widen (A : Assignment accepts fs pieces) (hf : fs.Subperm gs) (hp : pieces.Subperm rest) :
    Assignment accepts gs rest where
  pairs := A.pairs
  fst_subperm := A.fst_subperm.trans hf
  snd_subperm := A.snd_subperm.trans hp
  accepted := A.accepted

def flip (A : Assignment accepts fs pieces) : Assignment (fun x f => accepts f x) pieces fs where
  pairs := A.pairs.map Prod.swap
  fst_subperm := by simpa [Function.comp_def] using A.snd_subperm
  snd_subperm := by simpa [Function.comp_def] using A.fst_subperm
  accepted := by
    intro p hp
    obtain ⟨q, hq, rfl⟩ := List.mem_map.1 hp
    exact A.accepted q hq

theorem size_flip (A : Assignment accepts fs pieces) : A.flip.size = A.size :=
  List.length_map _

theorem size_le_fragments (A : Assignment accepts fs pieces) : A.size ≤ fs.length := by
  simpa [size] using A.fst_subperm.length_le

theorem perfect_of_size (A : Assignment accepts fs pieces) (hf : A.size = fs.length)
    (hp : A.size = pieces.length) : A.Perfect :=
  ⟨A.fst_subperm.perm_of_length_le (by rw [List.length_map, ← hf, size]),
    A.snd_subperm.perm_of_length_le (by rw [List.length_map, ← hp, size])⟩

theorem fragment_cases (A : Assignment accepts (f :: fs) pieces) :
    (∃ B : Assignment accepts fs pieces, B.size = A.size) ∨
      ∃ x rest, accepts f x = true ∧ pieces.Perm (x :: rest) ∧
        ∃ B : Assignment accepts fs rest, A.size = B.size + 1 := by
  rcases subperm_map_cons_cases A.fst_subperm with h | ⟨⟨f, x⟩, ps, hps, rfl, h⟩
  · exact .inl ⟨⟨A.pairs, h, A.snd_subperm, A.accepted⟩, rfl⟩
  · have hx : accepts f x = true := A.accepted (f, x) (hps.symm.subset (List.mem_cons_self ..))
    have hsnd : (x :: ps.map Prod.snd).Subperm pieces :=
      ((hps.map Prod.snd).symm.subperm).trans A.snd_subperm
    obtain ⟨rest, hrest, hsub⟩ := exists_perm_cons_of_subperm hsnd
    have hall : ∀ p ∈ ps, accepts p.1 p.2 = true := fun p hp =>
      A.accepted p (hps.symm.subset (List.mem_cons_of_mem _ hp))
    exact .inr ⟨x, rest, hx, hrest, ⟨ps, h, hsub, hall⟩, hps.length_eq⟩

theorem piece_cases (A : Assignment accepts fs (x :: pieces)) :
    (∃ B : Assignment accepts fs pieces, B.size = A.size) ∨
      ∃ g gs, accepts g x = true ∧ fs.Perm (g :: gs) ∧
        ∃ B : Assignment accepts gs pieces, A.size = B.size + 1 := by
  rcases A.flip.fragment_cases with ⟨B, hB⟩ | ⟨g, gs, hg, hgs, B, hB⟩
  · exact .inl ⟨B.flip, by rw [size_flip, hB, size_flip]⟩
  · exact .inr ⟨g, gs, hg, hgs, B.flip, by rw [← A.size_flip, hB, size_flip]⟩

theorem exists_of_refused (A : Assignment accepts (f :: fs) pieces)
    (h : ∀ x ∈ pieces, accepts f x = false) :
    ∃ B : Assignment accepts fs pieces, B.size = A.size := by
  rcases A.fragment_cases with hB | ⟨x, rest, hx, hrest, -⟩
  · exact hB
  · have hmem : x ∈ pieces := hrest.symm.subset (List.mem_cons_self ..)
    rw [h x hmem] at hx
    cases hx

theorem exists_dropFragment (A : Assignment accepts (f :: fs) pieces) :
    ∃ B : Assignment accepts fs pieces, A.size ≤ B.size + 1 := by
  rcases A.fragment_cases with ⟨B, hB⟩ | ⟨x, rest, -, hrest, B, hB⟩
  · exact ⟨B, by omega⟩
  · have hsub : rest.Subperm pieces :=
      (List.sublist_cons_self x rest).subperm.trans hrest.symm.subperm
    exact ⟨B.widen (List.Subperm.refl fs) hsub, hB.le⟩

theorem exists_dropPiece (A : Assignment accepts fs (x :: pieces)) :
    ∃ B : Assignment accepts fs pieces, A.size ≤ B.size + 1 := by
  obtain ⟨B, hB⟩ := A.flip.exists_dropFragment
  exact ⟨B.flip, by rwa [size_flip, ← A.size_flip]⟩

end Assignment

def sizes (accepts : α → β → Bool) (fs : List α) (pieces : List β) : Set Nat :=
  Set.range (Assignment.size : Assignment accepts fs pieces → Nat)

theorem exists_isGreatest_sizes (accepts : α → β → Bool) (fs : List α) (pieces : List β) :
    ∃ M, IsGreatest (sizes accepts fs pieces) M := by
  have hne : (sizes accepts fs pieces).Nonempty := ⟨_, .empty, rfl⟩
  have hbound : BddAbove (sizes accepts fs pieces) := by
    refine ⟨fs.length, ?_⟩
    rintro _ ⟨A, rfl⟩
    exact A.size_le_fragments
  exact ⟨_, Nat.sSup_mem hne hbound, fun k hk => le_csSup hbound hk⟩

/-- The fragments that greedy assignment leaves without a piece. -/
def idle (accepts : α → β → Bool) : List α → List β → List α
  | [], _ => []
  | f :: fs, pieces =>
      if pieces.any (accepts f) then idle accepts fs (pieces.eraseP (accepts f))
      else f :: idle accepts fs pieces

theorem eraseP_cases (p : β → Bool) (pieces : List β) :
    (∃ x, p x = true ∧ pieces.Perm (x :: pieces.eraseP p)) ∨
      (∀ x ∈ pieces, p x = false) ∧ pieces.eraseP p = pieces := by
  by_cases h : ∃ x ∈ pieces, p x = true
  · obtain ⟨y, hy, hpy⟩ := h
    obtain ⟨x, before, after, -, hx, rfl, he⟩ := List.exists_of_eraseP hy hpy
    rw [he]
    exact .inl ⟨x, hx, List.perm_middle⟩
  · have hnone : ∀ x ∈ pieces, p x = false := fun x hx => by
      simpa using fun hpx : p x = true => h ⟨x, hx, hpx⟩
    exact .inr ⟨hnone, List.eraseP_of_forall_not fun x hx => by simp [hnone x hx]⟩

theorem taken_nil (accepts : α → β → Bool) (pieces : List β) : taken accepts [] pieces = 0 :=
  Nat.sub_self _

theorem taken_cons_of_perm (h : pieces.Perm (x :: pieces.eraseP (accepts f))) :
    taken accepts (f :: fs) pieces = taken accepts fs (pieces.eraseP (accepts f)) + 1 := by
  have hlength := h.length_eq
  have hle := length_leftOver_le accepts fs (pieces.eraseP (accepts f))
  rw [List.length_cons] at hlength
  rw [taken, leftOver, taken]
  omega

theorem taken_cons_of_eq (h : pieces.eraseP (accepts f) = pieces) :
    taken accepts (f :: fs) pieces = taken accepts fs pieces := by
  rw [taken, leftOver, h, taken]

theorem exists_greedy (accepts : α → β → Bool) (fs : List α) (pieces : List β) :
    ∃ A : Assignment accepts fs pieces, A.size = taken accepts fs pieces := by
  induction fs generalizing pieces with
  | nil => exact ⟨.empty, (taken_nil accepts pieces).symm⟩
  | cons f fs ih =>
      rcases eraseP_cases (accepts f) pieces with ⟨x, hx, hp⟩ | ⟨-, he⟩
      · obtain ⟨A, hA⟩ := ih (pieces.eraseP (accepts f))
        refine ⟨(A.cons hx).widen (List.Subperm.refl _) hp.symm.subperm, ?_⟩
        rw [taken_cons_of_perm hp, ← hA]
        rfl
      · obtain ⟨A, hA⟩ := ih pieces
        refine ⟨A.widen (List.sublist_cons_self f fs).subperm (List.Subperm.refl _), ?_⟩
        rw [taken_cons_of_eq he, ← hA]
        rfl

/-- A piece taken in vain costs another assignment two pairs at most: that of the fragment and that
of the piece. -/
theorem Assignment.size_le_two_mul_taken (A : Assignment accepts fs pieces) :
    A.size ≤ 2 * taken accepts fs pieces := by
  induction fs generalizing pieces with
  | nil => exact Nat.le_trans A.size_le_fragments (Nat.zero_le _)
  | cons f fs ih =>
      rcases eraseP_cases (accepts f) pieces with ⟨x, -, hp⟩ | ⟨hnone, he⟩
      · obtain ⟨B, hB⟩ := (A.widen (List.Subperm.refl _) hp.subperm).exists_dropFragment
        obtain ⟨C, hC⟩ := B.exists_dropPiece
        have hsize : A.size ≤ B.size + 1 := hB
        have htaken := ih C
        rw [taken_cons_of_perm hp]
        omega
      · obtain ⟨B, hB⟩ := A.exists_of_refused hnone
        rw [taken_cons_of_eq he, ← hB]
        exact ih B

theorem idle_refuses {fs : List α} {pieces : List β} (hf : f ∈ idle accepts fs pieces)
    (hx : x ∈ leftOver accepts fs pieces) : accepts f x = false := by
  induction fs generalizing pieces with
  | nil => cases hf
  | cons g fs ih =>
      rw [leftOver] at hx
      rw [idle] at hf
      split at hf
      · exact ih hf hx
      · rename_i hnone
        have hnone : ∀ y ∈ pieces, accepts g y = false := by simpa using hnone
        rw [List.eraseP_of_forall_not fun y hy => by simp [hnone y hy]] at hx
        rcases List.mem_cons.1 hf with rfl | hf
        · exact hnone x ((leftOver_sublist accepts fs pieces).subset hx)
        · exact ih hf hx

theorem length_idle_add_taken (accepts : α → β → Bool) (fs : List α) (pieces : List β) :
    (idle accepts fs pieces).length + taken accepts fs pieces = fs.length := by
  induction fs generalizing pieces with
  | nil => rw [taken_nil, idle, Nat.add_zero]
  | cons f fs ih =>
      have hfs := ih (pieces.eraseP (accepts f))
      rcases eraseP_cases (accepts f) pieces with ⟨x, hx, hp⟩ | ⟨hnone, he⟩
      · have hany : pieces.any (accepts f) = true :=
          List.any_eq_true.2 ⟨x, hp.symm.subset (List.mem_cons_self ..), hx⟩
        rw [idle, if_pos hany, taken_cons_of_perm hp, List.length_cons]
        omega
      · have hany : ¬pieces.any (accepts f) = true := by
          simpa using hnone
        rw [he] at hfs
        rw [idle, if_neg hany, taken_cons_of_eq he, List.length_cons, List.length_cons]
        omega

theorem taken_le_fragments (accepts : α → β → Bool) (fs : List α) (pieces : List β) :
    taken accepts fs pieces ≤ fs.length := by
  obtain ⟨A, hA⟩ := exists_greedy accepts fs pieces
  exact hA ▸ A.size_le_fragments

theorem length_leftOver (accepts : α → β → Bool) (fs : List α) (pieces : List β) :
    (leftOver accepts fs pieces).length = pieces.length - taken accepts fs pieces := by
  have hle := length_leftOver_le accepts fs pieces
  rw [taken]
  omega

theorem anyOrderPoints_leftOver (accepts : α → β → Bool) (fs : List α) (pieces : List β) :
    anyOrderPoints fs.length pieces.length (leftOver accepts fs pieces).length =
      credit fs.length pieces.length (taken accepts fs pieces) := by
  have hle : taken accepts fs pieces ≤ pieces.length := Nat.sub_le ..
  rw [length_leftOver, Int.ofNat_sub hle, anyOrderPoints_eq_credit]

theorem exists_perfect {accepts : α → β → Bool} {fs : List α} {pieces : List β} (hfs : fs ≠ [])
    (h : anyOrderPoints fs.length pieces.length (leftOver accepts fs pieces).length = fs.length) :
    ∃ A : Assignment accepts fs pieces, A.Perfect := by
  have hle : taken accepts fs pieces ≤ pieces.length := Nat.sub_le ..
  rw [anyOrderPoints_leftOver, credit_eq_iff (List.length_pos_iff.2 hfs)
    (taken_le_fragments accepts fs pieces) hle] at h
  obtain ⟨A, hA⟩ := exists_greedy accepts fs pieces
  exact ⟨A, A.perfect_of_size (hA.trans h.2) (hA.trans (h.2.trans h.1.symm))⟩

namespace Specification

variable {σ : Type}

/-- Scoring takes at least half as many pieces as the largest assignment. No fragment without a piece
fits a piece left over, and all points are given only if fragments and pieces can be paired off. -/
theorem handOut_ge_half {b : Specification} (ho : b.flags.anyOrder = true) (e : Engine σ) (s : σ)
    (answer : String) {accepts : Pattern → String → Bool}
    (ha : ∀ c ∈ e.handOutCalls b.flags s b.fragments (b.answerPieces answer),
      c.AnsweredBy accepts) :
    let fit := fits accepts b.flags
    let pieces := b.answerPieces answer
    let left := leftOver fit b.fragments pieces
    let m := pieces.length - left.length
    let k := anyOrderPoints b.fragments.length pieces.length left.length
    (e.handOut b.flags s b.fragments pieces).1 = .ok left ∧
    (∃ M, IsGreatest (sizes fit b.fragments pieces) M ∧ m ≤ M ∧ M ≤ 2 * m) ∧
    (idle fit b.fragments pieces).length + m = b.fragments.length ∧
    (∀ f ∈ idle fit b.fragments pieces, ∀ x ∈ left, fit f x = false) ∧
    (b.score e s answer).1 = .ok (if b.isDegenerate then 0.0
      else Float.ofInt k / Float.ofNat b.fragments.length) ∧
    (k = b.fragments.length → ∃ A : Assignment fit b.fragments pieces, A.Perfect) := by
  intro fit pieces left m k
  have hleft := e.handOut_eq_leftOver ha
  obtain ⟨M, hM⟩ := exists_isGreatest_sizes fit b.fragments pieces
  obtain ⟨A, hA⟩ := hM.1
  refine ⟨hleft, ⟨M, hM, ?_, ?_⟩, length_idle_add_taken fit b.fragments pieces,
    fun f hf x hx => idle_refuses hf hx, score_of_handOut ho hleft,
    exists_perfect (List.cons_ne_nil b.first _)⟩
  · exact hM.2 (exists_greedy fit b.fragments pieces)
  · exact hA ▸ A.size_le_two_mul_taken

def eitherThenOne : Specification where
  first := "a|b"
  others := ["b"]
  flags := { anyOrder := true }

def acceptsOf (p : Pattern) (subject : String) : Bool :=
  (p.matches subject).toOption.getD false

/-- The bound is met: the first fragment takes the only piece that the second one fits. -/
theorem handOut_ge_half_eitherThenOne :
    eitherThenOne.flags.anyOrder = true ∧
    (∀ c ∈ Engine.regex.handOutCalls eitherThenOne.flags {} eitherThenOne.fragments
      (eitherThenOne.answerPieces "b\na"), c.AnsweredBy acceptsOf) ∧
    let fit := fits acceptsOf eitherThenOne.flags
    (Engine.regex.handOut eitherThenOne.flags {} eitherThenOne.fragments [['b'], ['a']]).1 =
      .ok [['a']] ∧
    IsGreatest (sizes fit eitherThenOne.fragments [['b'], ['a']]) (2 * 1) ∧
    fit "b" ['a'] = false := by
  have ho : eitherThenOne.flags.anyOrder = true := rfl
  have ha : ∀ c ∈ Engine.regex.handOutCalls eitherThenOne.flags {} eitherThenOne.fragments
      (eitherThenOne.answerPieces "b\na"), c.AnsweredBy acceptsOf := by
    decide +kernel
  have hpieces : eitherThenOne.answerPieces "b\na" = [['b'], ['a']] := by decide
  have hleft : leftOver (fits acceptsOf eitherThenOne.flags) eitherThenOne.fragments
      [['b'], ['a']] = [['a']] := by
    decide +kernel
  have hidle : idle (fits acceptsOf eitherThenOne.flags) eitherThenOne.fragments
      [['b'], ['a']] = ["b"] := by
    decide +kernel
  obtain ⟨hhand, ⟨M, hM, -, htwo⟩, -, hrefuses, -, -⟩ :=
    handOut_ge_half ho Engine.regex {} "b\na" ha
  rw [hpieces] at hhand hM htwo hrefuses
  rw [hleft] at hhand htwo hrefuses
  rw [hidle] at hrefuses
  let crossed : Assignment (fits acceptsOf eitherThenOne.flags) eitherThenOne.fragments
      [['b'], ['a']] :=
    { pairs := [("a|b", ['a']), ("b", ['b'])]
      fst_subperm := List.Subperm.refl _
      snd_subperm := (List.Perm.swap ..).subperm
      accepted := by decide +kernel }
  have hsize : 2 ≤ M := hM.2 ⟨crossed, rfl⟩
  have hM2 : M = 2 * 1 := Nat.le_antisymm htwo hsize
  exact ⟨ho, ha, hhand, hM2 ▸ hM, hrefuses _ (by simp) _ (by simp)⟩

end Specification

end AnswerGrading
