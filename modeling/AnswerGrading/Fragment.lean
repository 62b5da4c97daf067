import AnswerGrading.Flags
import AnswerGrading.Pattern

/-!
Fragments are what an author writes between brackets. A fragment becomes a pattern in four passes:
spaces, pipes and semicolons, redirections, and last the escapes that a delimited pattern needs.
All but the third treat each lexeme, an escape pair or a single character, on its own.
-/

namespace AnswerGrading.Fragment

inductive Lexeme where
  | pair (c : Char)
  | single (c : Char)
  deriving DecidableEq, Repr

def Lexeme.text : Lexeme → List Char
  | .pair c => ['\\', c]
  | .single c => [c]

/-- Only a final backslash stands alone. -/
def lexemes : List Char → List Lexeme
  | [] => []
  | [c] => [.single c]
  | c :: d :: cs => if c = '\\' then .pair d :: lexemes cs else .single c :: lexemes (d :: cs)

theorem flatMap_text_lexemes (cs : List Char) : (lexemes cs).flatMap Lexeme.text = cs := by
  fun_induction lexemes cs with
  | case1 => rfl
  | case2 => rfl
  | case3 d cs ih => simp [Lexeme.text, ih]
  | case4 c d cs h ih => simp [Lexeme.text, ih]

/-- The text ends in a backslash that is not the second half of a pair. -/
def endsLone (cs : List Char) : Bool :=
  (lexemes cs).getLast? == some (.single '\\')

/-- `(?:[ \t]+)` -/
def spaceRun : List Char :=
  ['(', '?', ':', '[', ' ', '\\', 't', ']', '+', ')']

/-- `[ \t]*` -/
def spaces : List Char :=
  ['[', ' ', '\\', 't', ']', '*']

/-- `(?:[ \t]*…[ \t]*)` -/
def spacedGroup (inner : List Char) : List Char :=
  ['(', '?', ':'] ++ spaces ++ inner ++ spaces ++ [')']

/-- `(?:;|\n)` between spaces. -/
def semicolonGroup : List Char :=
  spacedGroup ['(', '?', ':', ';', '|', '\\', 'n', ')']

def pipeGroup : List Char :=
  spacedGroup ['\\', '|']

def Lexeme.expandSpace : Lexeme → List Char
  | .single ' ' => spaceRun
  | l => l.text

def Lexeme.expandPipe : Lexeme → List Char
  | .pair '|' => pipeGroup
  | .single ';' => semicolonGroup
  | l => l.text

/-- An escaped angle bracket is a bare one; a slash is escaped. -/
def Lexeme.normalize : Lexeme → List Char
  | .pair '<' => ['<']
  | .pair '>' => ['>']
  | .single '/' => ['\\', '/']
  | l => l.text

def expandSpaces (cs : List Char) : List Char :=
  (lexemes cs).flatMap Lexeme.expandSpace

def expandPipes (cs : List Char) : List Char :=
  (lexemes cs).flatMap Lexeme.expandPipe

def normalizeEscapes (cs : List Char) : List Char :=
  (lexemes cs).flatMap Lexeme.normalize

/-- What the redirection pass is in the middle of: nothing, an opening bracket, `(?`, `(?<`, or the
name of a group. -/
inductive Opener where
  | none
  | bracket
  | question
  | angle
  | name
  deriving DecidableEq, Repr

def isRedirect (c : Char) : Bool :=
  c == '<' || c == '>'

def redirectGroup (c : Char) (doubled : Bool) : List Char :=
  spacedGroup (if doubled then [c, c] else [c])

/-- Angle brackets that open a group or enclose its name are no redirections. A name starts with a
letter and ends with the next `>`, or with the text. -/
def expandFrom : Opener → List Char → List Char
  | _, [] => []
  | .name, c :: cs => c :: expandFrom (if c = '>' then .none else .name) cs
  | .bracket, '?' :: cs => '?' :: expandFrom .question cs
  | .question, '<' :: cs => '<' :: expandFrom .angle cs
  | o, c :: cs =>
      if o = .angle ∧ Unicode.isAlphabetic c then c :: expandFrom .name cs
      else if c = '\\' then
        match cs with
        | d :: cs => '\\' :: d :: expandFrom .none cs
        | [] => ['\\']
      else if c = '(' then '(' :: expandFrom .bracket cs
      else if isRedirect c then
        match cs with
        | d :: cs =>
            if d = c then redirectGroup c true ++ expandFrom .none cs
            else redirectGroup c false ++ expandFrom .none (d :: cs)
        | [] => redirectGroup c false
      else c :: expandFrom .none cs

def expandRedirects (cs : List Char) : List Char :=
  expandFrom .none cs

def passIf (on : Bool) (pass : List Char → List Char) (cs : List Char) : List Char :=
  if on then pass cs else cs

def body (fs : Flags) (cs : List Char) : List Char :=
  normalizeEscapes <| passIf fs.redirectSpace expandRedirects <|
    passIf fs.pipeSpace expandPipes <| passIf fs.infiniteSpace expandSpaces cs

/-- `^(?:…)$` -/
def anchored (cs : List Char) : List Char :=
  ['^', '(', '?', ':'] ++ cs ++ [')', '$']

def synthesize (fragment : String) (fs : Flags) : Pattern where
  text := .ofList (anchored (body fs fragment.toList))
  ignoreCase := fs.ignoreCase
  dotAll := fs.dotAll

theorem toList_synthesize (fragment : String) (fs : Flags) :
    (synthesize fragment fs).text.toList = anchored (body fs fragment.toList) :=
  String.toList_ofList

end AnswerGrading.Fragment
