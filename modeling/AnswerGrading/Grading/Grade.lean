import AnswerGrading.Grading.Score
import AnswerGrading.Grading.Scoring
import AnswerGrading.Rule

/-!
Grading by a list of rules: the rule with the largest weighted score is selected, the first one of
equals. A rule that cannot be processed is passed over. The report says what became of each rule.
-/

namespace AnswerGrading

variable {σ : Type}

abbrev Best := Option (String × Float)

def Best.improve (best : Best) (id : String) (weighted : Float) : Best :=
  match best with
  | none => some (id, weighted)
  | some (_, current) => if weighted > current then some (id, weighted) else best

def Best.score : Best → Score
  | none => .none
  | some (id, weighted) => .matched id weighted

def gradeFrom (e : Engine σ) (answer : String) : σ → Best → List Rule → Best × σ
  | s, best, [] => (best, s)
  | s, best, r :: rs =>
      match r.body.score e s answer with
      | (.error _, s) => gradeFrom e answer s best rs
      | (.ok raw, s) =>
          if raw ≤ 0.0 then gradeFrom e answer s best rs
          else gradeFrom e answer s (best.improve r.id (raw * r.fraction)) rs

theorem gradeFrom_cons (e : Engine σ) (answer : String) (s : σ) (best : Best) (r : Rule)
    (rs : List Rule) :
    gradeFrom e answer s best (r :: rs) =
      match r.body.score e s answer with
      | (.error _, s) => gradeFrom e answer s best rs
      | (.ok raw, s) =>
          if raw ≤ 0.0 then gradeFrom e answer s best rs
          else gradeFrom e answer s (best.improve r.id (raw * r.fraction)) rs := by
  rfl

def grade (e : Engine σ) (s : σ) (rs : List Rule) (answer : String) : Score × σ :=
  let (best, s) := gradeFrom e answer s none rs
  (best.score, s)

inductive RuleOutcome where
  | matched (raw weighted : Float)
  | noMatch
  | unprocessable (e : PatternError)

def RuleOutcome.isMatched : RuleOutcome → Bool
  | .matched _ _ => true
  | _ => false

def RuleOutcome.isUnprocessable : RuleOutcome → Bool
  | .unprocessable _ => true
  | _ => false

structure Report where
  score : Score
  outcomes : List (String × RuleOutcome)

def reportFrom (e : Engine σ) (answer : String) :
    σ → Best → List Rule → Best × List (String × RuleOutcome) × σ
  | s, best, [] => (best, [], s)
  | s, best, r :: rs =>
      let (best, outcome, s) := match r.body.score e s answer with
        | (.error err, s) => (best, RuleOutcome.unprocessable err, s)
        | (.ok raw, s) =>
            if raw > 0.0 then
              let weighted := raw * r.fraction
              (best.improve r.id weighted, .matched raw weighted, s)
            else (best, .noMatch, s)
      let (best, outcomes, s) := reportFrom e answer s best rs
      (best, (r.id, outcome) :: outcomes, s)

theorem reportFrom_cons (e : Engine σ) (answer : String) (s : σ) (best : Best) (r : Rule)
    (rs : List Rule) :
    reportFrom e answer s best (r :: rs) =
      let (best, outcome, s) := match r.body.score e s answer with
        | (.error err, s) => (best, RuleOutcome.unprocessable err, s)
        | (.ok raw, s) =>
            if raw > 0.0 then
              let weighted := raw * r.fraction
              (best.improve r.id weighted, .matched raw weighted, s)
            else (best, .noMatch, s)
      let (best, outcomes, s) := reportFrom e answer s best rs
      (best, (r.id, outcome) :: outcomes, s) := by
  rfl

def gradeDetailed (e : Engine σ) (s : σ) (rs : List Rule) (answer : String) : Report × σ :=
  let (best, outcomes, s) := reportFrom e answer s none rs
  (⟨best.score, outcomes⟩, s)

namespace Report

def matched (r : Report) : List String :=
  (r.outcomes.filter fun (_, o) => o.isMatched).map Prod.fst

def hasUnprocessable (r : Report) : Bool :=
  r.outcomes.any fun (_, o) => o.isUnprocessable

def notice? (r : Report) : Option String :=
  if r.hasUnprocessable then some "Your answer could not be processed." else none

def text (r : Report) : String :=
  "score: " ++ r.score.text ++ ", matched: [" ++ ", ".intercalate r.matched ++ "]"
    ++ if r.hasUnprocessable then ", unprocessable rules present" else ""

end Report

def isComplete (answer : Option String) : Bool :=
  answer.any (· != "")

/-- A missing or empty response earns nothing and asks no rule. -/
def gradeResponse (e : Engine σ) (s : σ) (rs : List Rule) (answer : Option String) :
    Float × GradedState × σ :=
  let (fraction, s) := match answer with
    | some a =>
        if a = "" then (0.0, s)
        else
          let (score, s) := grade e s rs a
          (score.fraction, s)
    | none => (0.0, s)
  (fraction, .ofFraction fraction, s)

/-- With equal ids the first rule counts. -/
def ruleNamed? (rs : List Rule) (id : String) : Option Rule :=
  rs.find? (·.id == id)

def anyOrderCount (rs : List Rule) : Nat :=
  rs.countP (·.body.flags.anyOrder)

def ruleSetText (rs : List Rule) : String :=
  "RuleSet(" ++ toString rs.length ++ " rules, " ++ toString (anyOrderCount rs) ++ " any-order)"

end AnswerGrading
