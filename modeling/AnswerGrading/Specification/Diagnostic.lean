import AnswerGrading.Specification
import AnswerGrading.Specification.Anchor

/-!
What an author is told about a specification: letters that mean nothing, anchors that are added
anyway, and setting lines that are unknown, not allowed or out of order.
-/

namespace AnswerGrading

inductive Diagnostic where
  | illegalOption (c : Char)
  | unescapedAnchor (anchor : Char) (fragment : Nat)
  | unknownKey (name : String)
  | keyOutOfOrder (key : Key) (profile : KeyProfile)
  | malformed
  deriving DecidableEq, Repr

namespace Diagnostic

def message : Diagnostic → String
  | .illegalOption c => "illegal option '" ++ c.toString ++ "'"
  | .unescapedAnchor a n =>
      "unescaped anchor '" ++ a.toString ++ "' in regex " ++ toString n
        ++ "; anchors are added automatically"
  | .unknownKey name => "unknown key '" ++ name ++ "'"
  | .keyOutOfOrder k p =>
      "key '" ++ k.name ++ "' is out of order; keys must appear in the order: " ++ p.expectedOrder
  | .malformed => "no `[[regex]] /OPTIONS/` block found"

def letters : Form → List Char
  | .current => ['I', 'i', 'D', 'd', 'P', 'p', 'R', 'r', 'O', 'o', 'S', 's', 'T', 't']
  | .legacy => ['I', 'D', 'P', 'R', 'O', 'S', 'T']

def isLetter (form : Form) (c : Char) : Bool :=
  (letters form).contains c

def ofLetters (form : Form) (letters : List Char) : List Diagnostic :=
  (letters.filter fun c => !isLetter form c).map .illegalOption

/-- Fragments are counted from one. -/
def ofFragments (fragments : List (List Char)) : List Diagnostic :=
  fragments.zipIdx.filterMap fun (f, i) => (unescapedAnchor? f).map (.unescapedAnchor · (i + 1))

/-- An unknown line goes by the text before its first equals sign. -/
def lineName (line : List Char) : String :=
  .ofList (Text.trimEnd (line.takeWhile (· != '=')))

/-- A key must come after the last one that was in order. -/
def ofLines (profile : KeyProfile) : Option Key → List SettingLine → List Diagnostic
  | _, [] => []
  | last, .unknown line :: ls => .unknownKey (lineName line) :: ofLines profile last ls
  | last, .setting k _ :: ls =>
      if !profile.allows k then .unknownKey k.name :: ofLines profile last ls
      else if last.any (k.rank ≤ ·.rank) then .keyOutOfOrder k profile :: ofLines profile last ls
      else ofLines profile (some k) ls

def ofSections (profile : KeyProfile) (form : Form) (s : Sections) : List Diagnostic :=
  ofLetters form s.letters ++ ofFragments s.fragments
    ++ ofLines profile none (SettingLine.readAll s.block)

end Diagnostic

def Specification.diagnose (profile : KeyProfile) (text : String) : List Diagnostic :=
  match Sections.read? text.toList with
  | some (form, s) => Diagnostic.ofSections profile form s
  | none => [.malformed]

end AnswerGrading
