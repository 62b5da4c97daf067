import AnswerGrading.Regex.Reach
import AnswerGrading.Regex.Reader
import AnswerGrading.Regex.Search

/-!
Compiled patterns. A regular pattern is decided by moving sets of positions and always gets an
answer; any other is searched for with backtracking, and the search may give up.
-/

namespace AnswerGrading.Regex

inductive Program where
  | regular (r : Regular)
  | search (groups : Nat) (plan : Plan)
  deriving DecidableEq, Repr

def Source.program (s : Source) : Except Defect Program :=
  match s.expression.regular? s.referred with
  | some r => r.check.map .regular
  | none => (s.expression.spread.plan s.referred false).map (.search s.groups)

def Program.compile (m : Modes) (cs : List Char) : Except Defect Program := do
  (← Source.read m cs).program

/-- Whether some part of the text matches; `none` when the search gave up. -/
def Program.occurs? (text : List Char) : Program → Option Bool
  | .regular r => some (r.occurs text.toArray)
  | .search groups plan => plan.occurs? text.toArray groups

end AnswerGrading.Regex
