import AnswerGrading.Flags
import AnswerGrading.Setting

/-!
Specifications. The current form encloses fragments in double brackets and ends them with an options
block; the older form is one line with the options behind it. Settings follow either. A text that is
in neither form becomes the specification with one empty fragment, which no answer meets.
-/

namespace AnswerGrading

inductive Form where
  | current
  | legacy
  deriving DecidableEq, Repr

def Form.name : Form → String
  | .current => "current"
  | .legacy => "legacy"

def Form.landmark : Form → String
  | .current => "`]] /OPTIONS/` marker"
  | .legacy => "trailing `/OPTIONS/` suffix"

structure FormError where
  form : Form
  deriving DecidableEq, Repr

def FormError.message (e : FormError) : String :=
  "not a " ++ e.form.name ++ " specification: no " ++ e.form.landmark ++ " found"

/-- The parts of a text: the first fragment, the others, the option letters and the setting
lines. -/
structure Sections where
  first : List Char
  others : List (List Char)
  letters : List Char
  block : List Char
  deriving DecidableEq, Repr

def Sections.fragments (s : Sections) : List (List Char) :=
  s.first :: s.others

def isLooseSpace (c : Char) : Bool :=
  c == ' ' || c == '\t' || c == '\r' || c == '\n'

def afterClosing? : List Char → Option (List Char)
  | ']' :: ']' :: cs => some (cs.dropWhile isLooseSpace)
  | _ => none

/-- `]]`, white space, and letters between slashes, at the start of a text: the letters and the rest
of the text. -/
def marker? (cs : List Char) : Option (List Char × List Char) :=
  match afterClosing? cs with
  | some ('/' :: cs) =>
      match cs.dropWhile Char.isAlpha with
      | '/' :: rest => some (cs.takeWhile Char.isAlpha, rest)
      | _ => none
  | _ => none

/-- The text after `]]`, white space and `[[`, when a text starts so. -/
def gap? (cs : List Char) : Option (List Char) :=
  match afterClosing? cs with
  | some ('[' :: '[' :: rest) => some rest
  | _ => none

def firstMarker? : List Char → Option (List Char × List Char × List Char)
  | [] => none
  | c :: cs =>
      match marker? (c :: cs) with
      | some (letters, rest) => some ([], letters, rest)
      | none => (firstMarker? cs).map fun (head, found) => (c :: head, found)

/-- Cuts at the gaps, leftmost first: the text before the first gap and the texts after each. The
number counts the characters of a gap that are still to be passed over. -/
def splitGaps : Nat → List Char → List Char × List (List Char)
  | _, [] => ([], [])
  | n + 1, _ :: cs => splitGaps n cs
  | 0, c :: cs =>
      match gap? (c :: cs) with
      | some rest =>
          let (next, others) := splitGaps (cs.length - rest.length) cs
          ([], next :: others)
      | none =>
          let (first, others) := splitGaps 0 cs
          (c :: first, others)

def dropBrackets : List Char → List Char
  | '[' :: '[' :: cs => cs
  | cs => cs

def Sections.current? (cs : List Char) : Option Sections := do
  let (head, letters, block) ← firstMarker? cs
  let (first, others) := splitGaps 0 (dropBrackets (Text.trim head))
  return ⟨first, others, letters, block⟩

def dropFinalSlash? (cs : List Char) : Option (List Char) :=
  if cs.getLast? = some '/' then some cs.dropLast else none

def Sections.legacy? (cs : List Char) : Option Sections := do
  let (line, block) := Text.firstLine (Text.trim cs)
  let front ← dropFinalSlash? (Text.trimEnd line)
  let fragment ← dropFinalSlash? (Text.dropEndWhile Char.isUpper front)
  return ⟨fragment, [], Text.takeEndWhile Char.isUpper front, block⟩

def Sections.inForm? (text : List Char) : Form → Option Sections
  | .current => Sections.current? (Text.withoutReturns text)
  | .legacy => Sections.legacy? (Text.withoutReturns text)

def Sections.read? (text : List Char) : Option (Form × Sections) :=
  match Sections.inForm? text .current with
  | some s => some (.current, s)
  | none => (Sections.inForm? text .legacy).map (.legacy, ·)

structure Specification where
  first : String
  others : List String
  flags : Flags
  separator : String := "\n"
  comment : Option String := none
  feedback : Option String := none
  points : Option UInt32 := none
  size : Option UInt32 := none
  deriving DecidableEq, Repr

namespace Specification

def fragments (s : Specification) : List String :=
  s.first :: s.others

def degenerate : Specification where
  first := ""
  others := []
  flags := {}

def isDegenerate (s : Specification) : Bool :=
  s.first == "" && s.others.isEmpty

theorem isDegenerate_degenerate : degenerate.isDegenerate = true := by decide

/-- A later setting replaces an earlier one, a number that cannot be read included. -/
def set (s : Specification) (value : List Char) : Key → Specification
  | .separator => { s with separator := .ofList value }
  | .comment => { s with comment := some (.ofList value) }
  | .feedback => { s with feedback := some (.ofList value) }
  | .points => { s with points := word? (Text.trim value) }
  | .size => { s with size := word? (Text.trim value) }

def apply (s : Specification) : SettingLine → Specification
  | .setting k value => s.set value k
  | .unknown _ => s

def applyAll (s : Specification) (ls : List SettingLine) : Specification :=
  ls.foldl apply s

def flagsOf (letters : List Char) : Form → Flags
  | .current => Flags.ofOptions letters
  | .legacy => Flags.ofLegacyOptions letters

def ofSections (form : Form) (s : Sections) : Specification :=
  applyAll
    { first := .ofList s.first
      others := s.others.map .ofList
      flags := flagsOf s.letters form }
    (SettingLine.readAll s.block)

def inForm (form : Form) (text : String) : Except FormError Specification :=
  match Sections.inForm? text.toList form with
  | some s => .ok (ofSections form s)
  | none => .error ⟨form⟩

def parse (text : String) : Specification :=
  match Sections.read? text.toList with
  | some (form, s) => ofSections form s
  | none => degenerate

theorem parse_of_current {text : String} {s : Specification} (h : inForm .current text = .ok s) :
    parse text = s := by
  unfold inForm at h
  unfold parse Sections.read?
  split at h
  · rename_i hs
    cases h
    simp
  · cases h

theorem parse_of_legacy {text : String} {s : Specification} {e : FormError}
    (hc : inForm .current text = .error e) (h : inForm .legacy text = .ok s) : parse text = s := by
  unfold inForm at h hc
  unfold parse Sections.read?
  split at hc
  · cases hc
  · rename_i hn
    split at h
    · rename_i hs
      cases h
      simp [hs]
    · cases h

theorem parse_of_neither {text : String} {e f : FormError}
    (hc : inForm .current text = .error e) (hl : inForm .legacy text = .error f) :
    parse text = degenerate := by
  unfold inForm at hl hc
  unfold parse Sections.read?
  split at hc
  · cases hc
  · rename_i hn
    split at hl
    · cases hl
    · rename_i hm
      simp [hm]

end Specification

end AnswerGrading
