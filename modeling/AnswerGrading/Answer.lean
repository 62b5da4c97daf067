import AnswerGrading.Text

/-!
Answers as they are graded: without carriage returns and without blank lines at the end; trimmed
ones also without spaces and tabs around each line and without blank lines at the start.
-/

namespace AnswerGrading.Answer

open AnswerGrading.Text

def trimIf (trims : Bool) (line : List Char) : List Char :=
  if trims then trimGaps line else line

def dropBlankEnd (ls : List (List Char)) : List (List Char) :=
  (ls.reverse.dropWhile isBlank).reverse

def dropBlankStart (trims : Bool) (ls : List (List Char)) : List (List Char) :=
  if trims then ls.dropWhile isBlank else ls

def prepare (trims : Bool) (answer : List Char) : List Char :=
  unlines <| dropBlankStart trims <| dropBlankEnd <|
    (lines (withoutReturns answer)).map (trimIf trims)

theorem prepare_withoutReturns (trims : Bool) (answer : List Char) :
    prepare trims (withoutReturns answer) = prepare trims answer := by
  simp [prepare, withoutReturns_idem]

end AnswerGrading.Answer
