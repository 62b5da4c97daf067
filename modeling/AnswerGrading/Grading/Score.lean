import AnswerGrading.Decimal.Shortest

namespace AnswerGrading

structure Score where
  rule : Option String
  fraction : Float

/-- Into the interval from zero to one; what is no number stays none. -/
def clampUnit (x : Float) : Float :=
  let y := if x < 0.0 then 0.0 else x
  if y > 1.0 then 1.0 else y

namespace Score

def matched (rule : String) (fraction : Float) : Score :=
  ⟨some rule, clampUnit fraction⟩

def none : Score :=
  ⟨.none, 0.0⟩

def isMatch (s : Score) : Bool :=
  s.rule.isSome

def text (s : Score) : String :=
  s.rule.getD "no match" ++ " = " ++ Decimal.ofFloat s.fraction

end Score

inductive GradedState where
  | right
  | partially
  | wrong
  deriving DecidableEq, Repr

def tolerance : Float := 0.000001

def GradedState.ofFraction (x : Float) : GradedState :=
  if x < tolerance then .wrong
  else if x > 1.0 - tolerance then .right
  else .partially

def GradedState.text : GradedState → String
  | .right => "gradedright"
  | .partially => "gradedpartial"
  | .wrong => "gradedwrong"

end AnswerGrading
