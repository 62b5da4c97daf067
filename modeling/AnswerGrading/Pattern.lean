import AnswerGrading.Regex.Program

namespace AnswerGrading

structure Pattern where
  text : String
  ignoreCase : Bool
  dotAll : Bool
  deriving DecidableEq, Repr

namespace Pattern

def modifiers (p : Pattern) : String :=
  (if p.ignoreCase then "i" else "") ++ (if p.dotAll then "s" else "")

def render (p : Pattern) : String :=
  "/" ++ p.text ++ "/" ++ p.modifiers

def modes (p : Pattern) : Regex.Modes :=
  { caseless := p.ignoreCase, dotNewline := p.dotAll }

def compile (p : Pattern) : Except Regex.Defect Regex.Program :=
  Regex.Program.compile p.modes p.text.toList

end Pattern

end AnswerGrading
