import AnswerGrading.Regex.Regular

/-!
Expressions with everything a pattern may hold: regular parts, groups, references, lookaround,
atomic groups and conditionals. `regular?` finds the regular ones.
-/

namespace AnswerGrading.Regex

inductive Expression where
  | empty
  | char (s : CharSet)
  | anchor (a : Anchor)
  | wordBoundary (negated : Bool)
  | seq (e f : Expression)
  | alt (e f : Expression)
  | loop (least : Nat) (most : Option Nat) (greedy : Bool) (e : Expression)
  | capture (group : Nat) (e : Expression)
  | look (behind negated : Bool) (e : Expression)
  | atomic (e : Expression)
  | reference (group : Nat)
  | isSet (group : Nat)
  | branch (condition yes no : Expression)
  | restart
  | searchStart
  deriving DecidableEq, Repr

namespace Expression

def sequence : List Expression → Expression
  | [] => .empty
  | [e] => e
  | e :: es => .seq e (sequence es)

def choice : Expression → List Expression → Expression
  | e, [] => e
  | e, f :: fs => .alt e (choice f fs)

def alone : Expression → Expression
  | .alt e f => .seq (.alt e f) .empty
  | e => e

def minSize : Expression → Nat
  | .empty => 0
  | .char _ => 1
  | .anchor _ => 0
  | .wordBoundary _ => 0
  | .seq e f => e.minSize + f.minSize
  | .alt e f => min e.minSize f.minSize
  | .loop least _ _ e => e.minSize * least
  | .capture _ e => e.minSize
  | .look _ _ _ => 0
  | .atomic e => e.minSize
  | .reference _ => 0
  | .isSet _ => 0
  | .branch c y n => c.minSize + min y.minSize n.minSize
  | .restart => 0
  | .searchStart => 0

def fixedSize : Expression → Bool
  | .empty => true
  | .char _ => true
  | .anchor _ => true
  | .wordBoundary _ => true
  | .seq e f => e.fixedSize && f.fixedSize
  | .alt e f => e.fixedSize && f.fixedSize && e.minSize == f.minSize
  | .loop least most _ e => e.fixedSize && most == some least
  | .capture _ e => e.fixedSize
  | .look _ _ _ => true
  | .atomic e => e.fixedSize
  | .reference _ => false
  | .isSet _ => true
  | .branch c y n =>
      c.fixedSize && y.fixedSize && n.fixedSize && c.minSize + y.minSize == n.minSize
  | .restart => true
  | .searchStart => true

/-- The expression without its groups, if it is regular. A group that is referred to is not: which
text it holds matters. -/
def regular? (referred : List Nat) : Expression → Option Regular
  | .empty => some .empty
  | .char s => some (.char s)
  | .anchor a => some (.anchor a)
  | .seq e f => do return .seq (← e.regular? referred) (← f.regular? referred)
  | .alt e f => do return .alt (← e.regular? referred) (← f.regular? referred)
  | .loop least most greedy e => do return .loop least most greedy (← e.regular? referred)
  | .capture g e => if referred.contains g then none else e.regular? referred
  | .wordBoundary _ => none
  | .look _ _ _ => none
  | .atomic _ => none
  | .reference _ => none
  | .isSet _ => none
  | .branch _ _ _ => none
  | .restart => none
  | .searchStart => none

def repeatable : Expression → Bool
  | .empty => false
  | .anchor _ => false
  | .wordBoundary _ => false
  | .look _ _ _ => false
  | _ => true

end Expression

end AnswerGrading.Regex
