import AnswerGrading.Regex.CharSet

namespace AnswerGrading.Regex

inductive Anchor where
  | textStart
  | textEnd
  | lineStart
  | lineEnd
  deriving DecidableEq, Repr

def Anchor.holds (text : Array Char) : Anchor → Nat → Bool
  | .textStart, i => i == 0
  | .textEnd, i => i == text.size
  | .lineStart, i => i == 0 || text[i - 1]? == some '\n'
  | .lineEnd, i => i == text.size || text[i]? == some '\n'

inductive Regular where
  | empty
  | char (s : CharSet)
  | anchor (a : Anchor)
  | seq (r s : Regular)
  | alt (r s : Regular)
  | loop (least : Nat) (most : Option Nat) (greedy : Bool) (r : Regular)
  deriving DecidableEq, Repr

def Steps (R : Nat → Nat → Prop) : Nat → Nat → Nat → Prop
  | 0, i, j => i = j
  | n + 1, i, j => ∃ k, R i k ∧ Steps R n k j

theorem Steps.trans {R : Nat → Nat → Prop} {m n i j k : Nat}
    (h : Steps R m i j) (h' : Steps R n j k) : Steps R (m + n) i k := by
  induction m generalizing i with
  | zero => cases h; simpa using h'
  | succ m ih =>
      obtain ⟨l, hl, hr⟩ := h
      rw [Nat.succ_add]
      exact ⟨l, hl, ih hr⟩

namespace Regular

def Matches (text : Array Char) : Regular → Nat → Nat → Prop
  | .empty, i, j => i = j
  | .char s, i, j => j = i + 1 ∧ ∃ c, text[i]? = some c ∧ s.mem c = true
  | .anchor a, i, j => i = j ∧ a.holds text i = true
  | .seq r s, i, j => ∃ k, r.Matches text i k ∧ s.Matches text k j
  | .alt r s, i, j => r.Matches text i j ∨ s.Matches text i j
  | .loop least most _ r, i, j =>
      ∃ n, least ≤ n ∧ (∀ m ∈ most, n ≤ m) ∧ Steps (r.Matches text) n i j

/-- Every loop admits as many rounds as it asks for. -/
def Sound : Regular → Bool
  | .empty => true
  | .char _ => true
  | .anchor _ => true
  | .seq r s => r.Sound && s.Sound
  | .alt r s => r.Sound && s.Sound
  | .loop least most _ r => most.all (least ≤ ·) && r.Sound

end Regular

end AnswerGrading.Regex
