import AnswerGrading.Grading.Grade
import AnswerGrading.Specification.Diagnostic

/-!
Checks on a list of answers as authors enter them. A slot without a specification may hold neither a
grade nor feedback; every other slot's specification must be in order, and one of them must be worth
the full grade.
-/

namespace AnswerGrading

inductive AuthoringFault where
  | spec (d : Diagnostic)
  | gradeWithoutRegex
  | noAnswers
  | noFullGrade
  deriving DecidableEq, Repr

def AuthoringFault.message : AuthoringFault → String
  | .spec d => d.message
  | .gradeWithoutRegex => "grade or feedback set without a regular expression"
  | .noAnswers => "at least one regular expression is required"
  | .noFullGrade => "one of the answers must have a grade of 100%"

structure SlotError where
  slot : Nat
  id : String
  fault : AuthoringFault
  deriving DecidableEq, Repr

/-- Slots are counted from one. -/
def SlotError.text (e : SlotError) : String :=
  "answer " ++ toString (e.slot + 1) ++ " ('" ++ e.id ++ "'): " ++ e.fault.message

def isBlankText (s : String) : Bool :=
  (Text.trim s.toList).isEmpty

namespace Rule

def isBlank (r : Rule) : Bool :=
  isBlankText r.spec

def isGraded (r : Rule) : Bool :=
  r.fraction != 0.0 || !isBlankText r.ownFeedback

def isFullGrade (r : Rule) : Bool :=
  (r.fraction - 1.0).abs < tolerance

end Rule

structure Tally where
  errors : List SlotError := []
  authored : Nat := 0
  full : Bool := false
  deriving DecidableEq, Repr

def Tally.add (profile : KeyProfile) (t : Tally) (slot : Nat) (r : Rule) : Tally :=
  if r.isBlank then
    if r.isGraded then
      { t with
        errors := t.errors ++ [⟨slot, r.id, .gradeWithoutRegex⟩]
        authored := t.authored + 1 }
    else t
  else
    { errors :=
        t.errors ++ (Specification.diagnose profile r.spec).map fun d => ⟨slot, r.id, .spec d⟩
      authored := t.authored + 1
      full := t.full || r.isFullGrade }

def Tally.ofSlots (profile : KeyProfile) (slots : List Rule) : Tally :=
  slots.zipIdx.foldl (fun t (r, i) => t.add profile i r) {}

def Tally.setFault? (t : Tally) : Option AuthoringFault :=
  if t.authored = 0 then some .noAnswers
  else if t.full then none
  else some .noFullGrade

def firstId (slots : List Rule) : String :=
  (slots.head?.map (·.id)).getD ""

/-- What is wrong with the list as a whole is told last, at its first slot. -/
def checkSlots (profile : KeyProfile) (slots : List Rule) : List SlotError :=
  let t := Tally.ofSlots profile slots
  t.errors ++ t.setFault?.toList.map (SlotError.mk 0 (firstId slots))

def compileSlots (profile : KeyProfile) (slots : List Rule) :
    Except (List SlotError) (List Rule) :=
  match checkSlots profile slots with
  | [] => .ok (slots.filter fun r => !r.isBlank)
  | errors => .error errors

def authoringText (errors : List SlotError) : String :=
  toString errors.length ++ " authoring error(s): "
    ++ "; ".intercalate (errors.map SlotError.text)

end AnswerGrading
