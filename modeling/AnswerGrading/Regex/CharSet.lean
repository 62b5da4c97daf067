import AnswerGrading.Unicode.Letter
import AnswerGrading.Unicode.Folding

namespace AnswerGrading.Regex

open AnswerGrading.Unicode

inductive CharSet where
  | none
  | one (c : Char)
  | span (first last : Char)
  | table (ranges : List Range)
  | word
  | digit
  | space
  | union (s t : CharSet)
  | inter (s t : CharSet)
  | diff (s t : CharSet)
  | compl (s : CharSet)
  | folded (s : CharSet)
  deriving DecidableEq, Repr

namespace CharSet

/-- A folded set holds a character as soon as it holds one that differs by case alone. -/
def mem : CharSet → Char → Bool
  | .none, _ => false
  | .one d, c => c == d
  | .span a b, c => decide (a ≤ c) && decide (c ≤ b)
  | .table rs, c => Range.containsAny rs c
  | .word, c => isWord c
  | .digit, c => isDecimal c
  | .space, c => isSpace c
  | .union s t, c => s.mem c || t.mem c
  | .inter s t, c => s.mem c && t.mem c
  | .diff s t, c => s.mem c && !t.mem c
  | .compl s, c => !s.mem c
  | .folded s, c => s.mem c || (variants c).any s.mem

@[simp] theorem mem_one (c d : Char) : (CharSet.one d).mem c = (c == d) := rfl

@[simp] theorem mem_union (s t : CharSet) (c : Char) :
    (CharSet.union s t).mem c = (s.mem c || t.mem c) := rfl

def foldedIf (caseless : Bool) (s : CharSet) : CharSet :=
  if caseless then .folded s else s

def complIf (negated : Bool) (s : CharSet) : CharSet :=
  if negated then .compl s else s

def symmDiff (s t : CharSet) : CharSet :=
  .union (.diff s t) (.diff t s)

def any : CharSet :=
  .compl .none

def notNewline : CharSet :=
  .compl (.one '\n')

def hexDigit : CharSet :=
  .union (.span '0' '9') (.union (.span 'A' 'F') (.span 'a' 'f'))

end CharSet

/-- The classes a bracket expression may name between colons; they hold ASCII characters alone. -/
def posixClass? : List Char → Option CharSet
  | ['a', 'l', 'n', 'u', 'm'] =>
      some (.union (.span '0' '9') (.union (.span 'A' 'Z') (.span 'a' 'z')))
  | ['a', 'l', 'p', 'h', 'a'] => some (.union (.span 'A' 'Z') (.span 'a' 'z'))
  | ['a', 's', 'c', 'i', 'i'] => some (.table [⟨0x0, 0x7f⟩])
  | ['b', 'l', 'a', 'n', 'k'] => some (.union (.one '\t') (.one ' '))
  | ['c', 'n', 't', 'r', 'l'] => some (.table [⟨0x0, 0x1f⟩, ⟨0x7f, 0x7f⟩])
  | ['d', 'i', 'g', 'i', 't'] => some (.span '0' '9')
  | ['g', 'r', 'a', 'p', 'h'] => some (.span '!' '~')
  | ['l', 'o', 'w', 'e', 'r'] => some (.span 'a' 'z')
  | ['p', 'r', 'i', 'n', 't'] => some (.span ' ' '~')
  | ['p', 'u', 'n', 'c', 't'] =>
      some (.table [⟨0x21, 0x2f⟩, ⟨0x3a, 0x40⟩, ⟨0x5b, 0x60⟩, ⟨0x7b, 0x7e⟩])
  | ['s', 'p', 'a', 'c', 'e'] => some (.table [⟨0x9, 0xd⟩, ⟨0x20, 0x20⟩])
  | ['u', 'p', 'p', 'e', 'r'] => some (.span 'A' 'Z')
  | ['w', 'o', 'r', 'd'] => some
      (.union (.span '0' '9') (.union (.span 'A' 'Z') (.union (.one '_') (.span 'a' 'z'))))
  | ['x', 'd', 'i', 'g', 'i', 't'] => some .hexDigit
  | _ => none

end AnswerGrading.Regex
