import AnswerGrading.Specification

/-!
Rules: a specification's text, the fraction it is worth, and feedback. Only this is stored; the
specification is read from its text when a rule is made, and never again.
-/

namespace AnswerGrading

inductive FeedbackFormat where
  | moodle
  | html
  | plain
  | markdown
  deriving DecidableEq, Repr

namespace FeedbackFormat

def code : FeedbackFormat → Nat
  | .moodle => 0
  | .html => 1
  | .plain => 2
  | .markdown => 4

def ofCode : Nat → FeedbackFormat
  | 0 => .moodle
  | 2 => .plain
  | 4 => .markdown
  | _ => .html

theorem ofCode_code (f : FeedbackFormat) : ofCode f.code = f := by
  cases f <;> rfl

end FeedbackFormat

structure StoredRule where
  id : String
  spec : String
  fraction : Float
  ownFeedback : String := ""
  format : FeedbackFormat := .html

structure Rule extends StoredRule where
  body : Specification := .parse spec
  body_eq : body = .parse spec := by rfl

def Rule.ofStored (s : StoredRule) : Rule :=
  { s with }

theorem Rule.ofStored_toStoredRule (r : Rule) : .ofStored r.toStoredRule = r := by
  obtain ⟨s, body, rfl⟩ := r
  rfl

/-- Feedback in the specification takes the place of the rule's own. -/
def Rule.feedback (r : Rule) : String :=
  r.body.feedback.getD r.ownFeedback

end AnswerGrading
