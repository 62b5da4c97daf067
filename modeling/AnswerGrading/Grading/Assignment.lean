/-!
Assignments of fragments to the pieces of an answer. Greedy assignment goes through the fragments in
order and gives each the first piece left that it accepts; points are what a perfect assignment
would earn, less what is missing and what is left over.
-/

namespace AnswerGrading

def leftOver {α β : Type} (accepts : α → β → Bool) : List α → List β → List β
  | [], pieces => pieces
  | f :: fs, pieces => leftOver accepts fs (pieces.eraseP (accepts f))

theorem leftOver_sublist {α β : Type} (accepts : α → β → Bool) (fs : List α) (pieces : List β) :
    (leftOver accepts fs pieces).Sublist pieces := by
  induction fs generalizing pieces with
  | nil => exact List.Sublist.refl _
  | cons f fs ih => exact (ih _).trans List.eraseP_sublist

theorem length_leftOver_le {α β : Type} (accepts : α → β → Bool) (fs : List α)
    (pieces : List β) : (leftOver accepts fs pieces).length ≤ pieces.length :=
  (leftOver_sublist accepts fs pieces).length_le

def taken {α β : Type} (accepts : α → β → Bool) (fs : List α) (pieces : List β) : Nat :=
  pieces.length - (leftOver accepts fs pieces).length

/-- One point for each fragment, less one for each piece missing or in excess and one for each piece
left over beyond the excess; never below zero. -/
def anyOrderPoints (fragments pieces wrong : Int) : Int :=
  let missing := fragments - pieces
  max 0 (fragments - missing.natAbs - (wrong - max 0 (-missing)))

def word64? (x : Int) : Option Int :=
  if Int64.minValue.toInt ≤ x ∧ x ≤ Int64.maxValue.toInt then some x else none

/-- The same points on words of 64 bits, `none` when a step leaves them. -/
def anyOrderPoints64? (fragments pieces wrong : Int) : Option Int := do
  let missing ← word64? (fragments - pieces)
  let distance ← word64? missing.natAbs
  let inPlace ← word64? (fragments - distance)
  let excess ← word64? (-missing)
  let surplus ← word64? (wrong - max 0 excess)
  let points ← word64? (inPlace - surplus)
  return max 0 points

theorem anyOrderPoints_nonneg (fragments pieces wrong : Int) :
    0 ≤ anyOrderPoints fragments pieces wrong :=
  Int.le_max_left ..

end AnswerGrading
