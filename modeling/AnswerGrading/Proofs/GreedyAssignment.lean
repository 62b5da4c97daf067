import AnswerGrading.Proofs.Calls
import Mathlib.Algebra.Group.Int.Defs
import Mathlib.Data.List.FinRange
import Mathlib.Data.List.ReduceOption

namespace AnswerGrading

variable {σ : Type} {flags : Flags} {L : List (List Char)}

def refusals (p : Pattern) (places : List (Fin L.length)) : List Call :=
  places.map fun i => p.refusal (L.get i)

theorem map_refusal (p : Pattern) (places : List (Fin L.length)) :
    (places.map L.get).map p.refusal = refusals p places :=
  List.map_map

/-- Each fragment takes the first free place whose piece it accepts, if there is one. -/
inductive Assigns (flags : Flags) (L : List (List Char)) :
    List String → List (Fin L.length) → List Call → List (Option (Fin L.length)) →
      List (Fin L.length) → Prop where
  | done (free : List (Fin L.length)) : Assigns flags L [] free [] [] free
  | miss {f : String} {fs : List String} {free left : List (Fin L.length)} {calls : List Call}
      {picks : List (Option (Fin L.length))} (rest : Assigns flags L fs free calls picks left) :
      Assigns flags L (f :: fs) free
        (refusals (Fragment.synthesize f flags) free ++ calls)
        (none :: picks) left
  | hit {f : String} {fs : List String} {before after left : List (Fin L.length)}
      {calls : List Call} {picks : List (Option (Fin L.length))} (i : Fin L.length)
      (rest : Assigns flags L fs (before ++ after) calls picks left) :
      Assigns flags L (f :: fs) (before ++ i :: after)
        (refusals (Fragment.synthesize f flags) before ++
          (Fragment.synthesize f flags).acceptance (L.get i) :: calls)
        (some i :: picks) left

theorem Assigns.length_picks {fs : List String} {free left : List (Fin L.length)}
    {calls : List Call} {picks : List (Option (Fin L.length))}
    (h : Assigns flags L fs free calls picks left) : picks.length = fs.length := by
  induction h with
  | done => rfl
  | miss _ ih => simp [ih]
  | hit _ _ ih => simp [ih]

theorem Assigns.perm {fs : List String} {free left : List (Fin L.length)} {calls : List Call}
    {picks : List (Option (Fin L.length))} (h : Assigns flags L fs free calls picks left) :
    (picks.reduceOption ++ left).Perm free := by
  induction h with
  | done => exact List.Perm.refl _
  | miss _ ih => simpa using ih
  | hit i _ ih =>
      rw [List.reduceOption_cons_of_some, List.cons_append]
      exact (ih.cons i).trans List.perm_middle.symm

theorem not_answered_breakdown (p : Pattern) (piece : List Char) (err : PatternError) :
    ¬(p.breakdown piece err).Answered := by
  rintro ⟨accepted, h⟩
  cases h

theorem HandsOut.assigns {fs : List String} {pieces : List (List Char)} {calls : List Call}
    {r : Except PatternError (List (List Char))} (h : HandsOut flags fs pieces calls r)
    (ha : ∀ c ∈ calls, c.Answered) {free : List (Fin L.length)} (hf : free.map L.get = pieces) :
    ∃ picks left, Assigns flags L fs free calls picks left ∧ r = .ok (left.map L.get) := by
  induction h generalizing free with
  | done => exact ⟨[], free, .done free, by rw [hf]⟩
  | next first _ ih =>
      have ha' := fun c hc => ha c (List.mem_append_right _ hc)
      cases first with
      | refused =>
          obtain ⟨picks, left, hr, rfl⟩ := ih ha' hf
          refine ⟨none :: picks, left, ?_, rfl⟩
          rw [← hf, map_refusal]
          exact hr.miss
      | accepted before piece after =>
          obtain ⟨places, rest, rfl, rfl, hrest⟩ := List.map_eq_append_iff.1 hf
          obtain ⟨i, later, rfl, rfl, rfl⟩ := List.map_eq_cons_iff.1 hrest
          obtain ⟨picks, left, hr, rfl⟩ := ih ha' List.map_append
          refine ⟨some i :: picks, left, ?_, rfl⟩
          rw [map_refusal, List.append_assoc]
          exact hr.hit i
  | failed first =>
      cases first
      have hm := ha _ (List.mem_append_right _ (List.mem_singleton_self _))
      exact (not_answered_breakdown _ _ _ hm).elim

/-- A place for each of `matched` fragments, less one for each piece in excess. -/
def credit (fragments pieces matched : Nat) : Int :=
  max 0 (matched - max 0 ((pieces : Int) - fragments))

theorem anyOrderPoints_eq_credit (fragments pieces matched : Nat) :
    anyOrderPoints fragments pieces (pieces - matched) = credit fragments pieces matched := by
  unfold anyOrderPoints credit
  dsimp only
  omega

theorem credit_nonneg (fragments pieces matched : Nat) : 0 ≤ credit fragments pieces matched :=
  Int.le_max_left ..

theorem credit_le {fragments pieces matched : Nat} (hm : matched ≤ fragments) :
    credit fragments pieces matched ≤ fragments := by
  unfold credit
  omega

theorem credit_eq_iff {fragments pieces matched : Nat} (hf : 0 < fragments)
    (hm : matched ≤ fragments) (hp : matched ≤ pieces) :
    credit fragments pieces matched = fragments ↔ pieces = fragments ∧ matched = fragments := by
  unfold credit
  omega

theorem anyOrderPoints64?_eq {fragments pieces wrong : Int}
    (hf : 0 ≤ fragments ∧ fragments ≤ 2 ^ 61) (hp : 0 ≤ pieces ∧ pieces ≤ 2 ^ 61)
    (hw : 0 ≤ wrong ∧ wrong ≤ 2 ^ 61) :
    anyOrderPoints64? fragments pieces wrong = some (anyOrderPoints fragments pieces wrong) := by
  have hfits {x : Int} (h : -2 ^ 63 ≤ x ∧ x < 2 ^ 63) : word64? x = some x := by
    rw [word64?, Int64.toInt_minValue, Int64.toInt_maxValue, if_pos (by omega)]
  unfold anyOrderPoints64? anyOrderPoints
  dsimp only
  rw [hfits (by omega), Option.bind_eq_bind, Option.bind_some, hfits (by omega),
    Option.bind_some, hfits (by omega), Option.bind_some, hfits (by omega), Option.bind_some,
    hfits (by omega), Option.bind_some, hfits (by omega), Option.bind_some]
  rfl

namespace Specification

/-- On calls that all give an answer, the score is the credit of a greedy assignment over the number
of fragments, and it is full exactly when every fragment has a piece and no piece is in excess. -/
theorem score_anyOrder {b : Specification} (hd : b.isDegenerate = false)
    (ho : b.flags.anyOrder = true) (e : Engine σ) (s : σ) (answer : String)
    (ha : ∀ c ∈ b.calls e s answer, c.Answered) :
    (∃ picks left, Assigns b.flags (b.answerPieces answer) b.fragments
        (List.finRange (b.answerPieces answer).length) (b.calls e s answer) picks left ∧
      picks.length = b.fragments.length ∧ picks.reduceOption.Nodup ∧
      let n := b.fragments.length
      let a := (b.answerPieces answer).length
      let m := picks.reduceOption.length
      let k := credit n a m
      (b.score e s answer).1 = .ok (Float.ofInt k / Float.ofNat n) ∧
      anyOrderPoints n a (a - m) = k ∧ 0 ≤ k ∧ k ≤ n ∧
      (k = n ↔ a = n ∧ ∀ pick ∈ picks, pick.isSome = true)) ∧
    ∀ n a w : Int, 0 ≤ n ∧ n ≤ 2 ^ 61 → 0 ≤ a ∧ a ≤ 2 ^ 61 → 0 ≤ w ∧ w ≤ 2 ^ 61 →
      anyOrderPoints64? n a w = some (anyOrderPoints n a w) := by
  refine ⟨?_, fun n a w => anyOrderPoints64?_eq⟩
  obtain ⟨r, hh, hs⟩ := handsOut_calls hd ho e s answer
  obtain ⟨picks, left, hp, rfl⟩ := hh.assigns ha (List.map_get_finRange _)
  have hperm := hp.perm
  have hnodup : (picks.reduceOption ++ left).Nodup := hperm.nodup_iff.2 (List.nodup_finRange _)
  have hlength := hperm.length_eq
  rw [List.length_append, List.length_finRange] at hlength
  have hm : picks.reduceOption.length ≤ b.fragments.length :=
    hp.length_picks ▸ picks.reduceOption_length_le
  refine ⟨picks, left, hp, hp.length_picks, (List.nodup_append.1 hnodup).1, ?_, ?_, ?_, ?_, ?_⟩
  · have hw : (left.length : Int) =
        (b.answerPieces answer).length - picks.reduceOption.length := by omega
    rw [hs, Except.map, share, List.length_map, hw, anyOrderPoints_eq_credit]
  · exact anyOrderPoints_eq_credit _ _ _
  · exact credit_nonneg _ _ _
  · exact credit_le hm
  · have hn : 0 < b.fragments.length := Nat.succ_pos _
    rw [credit_eq_iff hn hm (by omega), ← hp.length_picks, List.reduceOption_length_eq_iff]

def threeParts : Specification where
  first := "a b"
  others := ["a|c", "a"]
  flags := { anyOrder := true }

theorem score_anyOrder_threeParts :
    threeParts.isDegenerate = false ∧ threeParts.flags.anyOrder = true ∧
    (∀ c ∈ threeParts.calls Engine.regex {} "a\nx\na  b\nc", c.Answered) ∧
    (∃ picks left, Assigns threeParts.flags (threeParts.answerPieces "a\nx\na  b\nc")
        threeParts.fragments (List.finRange (threeParts.answerPieces "a\nx\na  b\nc").length)
        (threeParts.calls Engine.regex {} "a\nx\na  b\nc") picks left ∧
      (threeParts.score Engine.regex {} "a\nx\na  b\nc").1 =
        .ok (Float.ofInt (credit 3 4 picks.reduceOption.length) / Float.ofNat 3)) ∧
    anyOrderPoints64? 0 (2 ^ 61) 0 = some (anyOrderPoints 0 (2 ^ 61) 0) := by
  have hd : threeParts.isDegenerate = false := by decide
  have ho : threeParts.flags.anyOrder = true := rfl
  have ha : ∀ c ∈ threeParts.calls Engine.regex {} "a\nx\na  b\nc", c.Answered := by
    decide +kernel
  obtain ⟨⟨picks, left, hp, -, -, hs, -⟩, hwords⟩ := score_anyOrder hd ho Engine.regex {} _ ha
  refine ⟨hd, ho, ha, ⟨picks, left, hp, ?_⟩, hwords 0 (2 ^ 61) 0 (by decide) (by decide) (by decide)⟩
  have hlength : (threeParts.answerPieces "a\nx\na  b\nc").length = 4 := by decide
  simp only [hlength] at hs
  exact hs

end Specification

end AnswerGrading
