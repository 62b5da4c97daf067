import AnswerGrading.Regex.Defect
import AnswerGrading.Regex.CharSet

/-!
Bracket expressions. The items come with their escapes resolved, so a bare character can open a
nested bracket, close one, or join two items, and an escaped one stands for itself.
-/

namespace AnswerGrading.Regex

inductive BracketItem where
  | bare (c : Char)
  | escaped (c : Char)
  | set (s : CharSet)
  deriving DecidableEq, Repr

inductive SetOperation where
  | intersection
  | difference
  | symmetricDifference
  deriving DecidableEq, Repr

def SetOperation.apply : SetOperation → CharSet → CharSet → CharSet
  | .intersection, s, t => .inter s t
  | .difference, s, t => .diff s t
  | .symmetricDifference, s, t => .symmDiff s t

/-- One open bracket: whether it is negated, the items since the last operation, and that operation
with its left side. -/
structure Bracket where
  negated : Bool
  items : CharSet
  pending : Option (SetOperation × CharSet)
  deriving DecidableEq, Repr

namespace Bracket

def add (s : CharSet) (b : Bracket) : Bracket :=
  { b with items := .union b.items s }

/-- Operations group to the left. Both sides are folded when case does not count. -/
def value (caseless : Bool) (b : Bracket) : CharSet :=
  match b.pending with
  | none => b.items
  | some (op, left) => op.apply (left.foldedIf caseless) (b.items.foldedIf caseless)

def operate (caseless : Bool) (op : SetOperation) (b : Bracket) : Bracket :=
  { b with items := .none, pending := some (op, b.value caseless) }

def close (caseless : Bool) (b : Bracket) : CharSet :=
  ((b.value caseless).foldedIf caseless).complIf b.negated

end Bracket

def leadingHyphens : List BracketItem → CharSet × List BracketItem
  | .bare '-' :: rest =>
      let (s, rest) := leadingHyphens rest
      (.union (.one '-') s, rest)
  | rest => (.none, rest)

/-- What may follow an opening bracket: a `^`, then hyphens that stand for themselves, or one `]`
that does. -/
def openBracket (items : List BracketItem) : Bracket × List BracketItem :=
  let (negated, rest) := match items with
    | .bare '^' :: rest => (true, rest)
    | rest => (false, rest)
  match leadingHyphens rest with
  | (.none, .bare ']' :: rest) => (⟨negated, .one ']', none⟩, rest)
  | (s, rest) => (⟨negated, s, none⟩, rest)

def bareName : List BracketItem → List Char × List BracketItem
  | .bare ':' :: rest => ([], .bare ':' :: rest)
  | .bare c :: rest => let (name, rest) := bareName rest; (c :: name, rest)
  | rest => ([], rest)

/-- A class such as `:alpha:]` after the opening bracket; `^` before the name asks for the
complement, taken after folding. -/
def posixItem? (caseless : Bool) (items : List BracketItem) :
    Option (CharSet × List BracketItem) :=
  match items with
  | .bare ':' :: rest =>
      let (negated, rest) := match rest with
        | .bare '^' :: rest => (true, rest)
        | rest => (false, rest)
      match bareName rest with
      | (name, .bare ':' :: .bare ']' :: rest) =>
          (posixClass? name).map fun s => ((s.foldedIf caseless).complIf negated, rest)
      | _ => none
  | _ => none

def isMeta (c : Char) : Bool :=
  ['\\', '.', '+', '*', '?', '(', ')', '|', '[', ']', '\x7b', '\x7d', '^', '$', '#', '&', '-',
    '~'].contains c

/-- An escape only keeps a character from its meaning; without one it is as good as bare. -/
def BracketItem.ofEscaped (c : Char) : BracketItem :=
  if isMeta c then .escaped c else .bare c

def BracketItem.char? : BracketItem → Option Char
  | .bare c => some c
  | .escaped c => some c
  | .set _ => none

def BracketItem.toSet : BracketItem → CharSet
  | .bare c => .one c
  | .escaped c => .one c
  | .set s => s

/-- An item, or a span of characters when a hyphen joins two of them. A hyphen before `]` or before
another hyphen joins nothing. -/
def spanItem (item : BracketItem) : List BracketItem → Except Defect (CharSet × List BracketItem)
  | .bare '-' :: last :: rest =>
      if last = .bare ']' ∨ last = .bare '-' then .ok (item.toSet, .bare '-' :: last :: rest)
      else match item.char?, last.char? with
        | some a, some b => if a ≤ b then .ok (.span a b, rest) else .error .badSpan
        | _, _ => .error .badBracketItem
  | [.bare '-'] => .error .unclosedBracket
  | rest => .ok (item.toSet, rest)

def operation? : List BracketItem → Option (SetOperation × List BracketItem)
  | .bare '&' :: .bare '&' :: rest => some (.intersection, rest)
  | .bare '-' :: .bare '-' :: rest => some (.difference, rest)
  | .bare '~' :: .bare '~' :: rest => some (.symmetricDifference, rest)
  | _ => none

/-- Reads up to the bracket that closes the outermost one. The first argument bounds the number of
steps; each step takes at least one item. -/
def readBracket (caseless : Bool) : Nat → Bracket → List Bracket → List BracketItem →
    Except Defect (CharSet × List BracketItem)
  | 0, _, _, _ => .error .unclosedBracket
  | _ + 1, _, _, [] => .error .unclosedBracket
  | fuel + 1, b, outer, .bare '[' :: rest =>
      match posixItem? caseless rest with
      | some (s, rest) => readBracket caseless fuel (b.add s) outer rest
      | none =>
          let (inner, rest) := openBracket rest
          readBracket caseless fuel inner (b :: outer) rest
  | fuel + 1, b, outer, .bare ']' :: rest =>
      match outer with
      | [] => .ok (b.close caseless, rest)
      | parent :: outer => readBracket caseless fuel (parent.add (b.close caseless)) outer rest
  | fuel + 1, b, outer, item :: rest =>
      match operation? (item :: rest) with
      | some (op, rest) => readBracket caseless fuel (b.operate caseless op) outer rest
      | none => do
          let (s, rest) ← spanItem item rest
          readBracket caseless fuel (b.add s) outer rest

def bracketSet (caseless : Bool) (items : List BracketItem) :
    Except Defect (CharSet × List BracketItem) :=
  let (b, rest) := openBracket items
  readBracket caseless (rest.length + 1) b [] rest

end AnswerGrading.Regex
