import AnswerGrading.Regex.Defect
import AnswerGrading.Regex.Expression
import AnswerGrading.Regex.Machine

/-!
Plans for a search with backtracking. A regular part is taken as a whole where nothing after it can
ask for another of its matches, or where all of them have one size; the search commits to the end
that the part prefers.
-/

namespace AnswerGrading.Regex

inductive Plan where
  | skip
  | commit (m : Machine)
  | wordBoundary (negated : Bool)
  | seq (p q : Plan)
  | alt (p q : Plan)
  | loop (least : Nat) (most : Option Nat) (greedy progress : Bool) (p : Plan)
  | capture (group : Nat) (p : Plan)
  | back (size : Nat)
  | stay (p : Plan)
  | refuse (p : Plan)
  | atomic (p : Plan)
  | reference (group : Nat)
  | isSet (group : Nat)
  | branch (condition yes no : Plan)
  | searchStart
  deriving DecidableEq, Repr

def Regular.check (r : Regular) : Except Defect Regular :=
  if r.Sound = false then .error .badRepeat
  else if maxWeight < r.weight then .error .tooLarge
  else .ok r

namespace Expression

/-- Lookbehind on alternatives looks for each of them, so that each has its own size. -/
def lookBehind (negated : Bool) : Expression → Expression
  | .alt e f =>
      if negated then .seq (.look true true e) (lookBehind negated f)
      else .alt (.look true false e) (lookBehind negated f)
  | e => .look true negated e

def spread : Expression → Expression
  | .seq e f => .seq e.spread f.spread
  | .alt e f => .alt e.spread f.spread
  | .loop least most greedy e => .loop least most greedy e.spread
  | .capture g e => .capture g e.spread
  | .look true negated e => lookBehind negated e.spread
  | .look false negated e => .look false negated e.spread
  | .atomic e => .atomic e.spread
  | .branch c y n => .branch c.spread y.spread n.spread
  | e => e

def settle (referred : List Nat) (e : Expression) (last : Bool) (parts : Except Defect Plan) :
    Except Defect Plan :=
  match e.regular? referred with
  | some r =>
      if last || e.fixedSize then r.check.map fun r => .commit r.machine
      else parts
  | none => parts

def lookPlan (behind negated : Bool) (e : Expression) (p : Plan) : Except Defect Plan :=
  if behind && !e.fixedSize then .error .unboundedLookbehind
  else
    let inner := if behind then Plan.seq (.back e.minSize) p else p
    .ok (if negated then .refuse inner else .stay inner)

/-- `last` says that nothing after the expression can send the search back into it. -/
def plan (referred : List Nat) : Expression → Bool → Except Defect Plan
  | .empty, _ => .ok .skip
  | .char s, _ => .ok (.commit (Regular.char s).machine)
  | .anchor a, _ => .ok (.commit (Regular.anchor a).machine)
  | .wordBoundary negated, _ => .ok (.wordBoundary negated)
  | .seq e f, last => settle referred (.seq e f) last do
      return .seq (← plan referred e false) (← plan referred f last)
  | .alt e f, last => settle referred (.alt e f) last do
      return .alt (← plan referred e last) (← plan referred f last)
  | .loop least most greedy e, last => settle referred (.loop least most greedy e) last <|
      if least = 0 ∧ most = some 1 then do
        let p ← plan referred e last
        return if greedy then .alt p .skip else .alt .skip p
      else do
        let p ← plan referred e false
        return .loop least most greedy (most.isNone && e.minSize == 0) p
  | .capture g e, last => settle referred (.capture g e) last do
      return .capture g (← plan referred e last)
  | .look behind negated e, _ => do lookPlan behind negated e (← plan referred e true)
  | .atomic e, _ => do return .atomic (← plan referred e true)
  | .reference g, _ => .ok (.reference g)
  | .isSet g, _ => .ok (.isSet g)
  | .branch c y n, last => do
      return .branch (← plan referred c last) (← plan referred y last) (← plan referred n last)
  | .restart, _ => .ok .skip
  | .searchStart, _ => .ok .searchStart

end Expression

end AnswerGrading.Regex
