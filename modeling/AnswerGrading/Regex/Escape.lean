import AnswerGrading.Decimal.Digits
import AnswerGrading.Regex.Bracket
import AnswerGrading.Regex.Expression
import AnswerGrading.Regex.Property

namespace AnswerGrading.Regex

open AnswerGrading.Unicode

/-- A character given by its number is folded like a bare one; one that only stands after a
backslash is not. -/
inductive Escape where
  | numbered (c : Char)
  | exact (c : Char)
  | set (s : CharSet)
  | piece (e : Expression)
  | number (group : Nat)
  | name (id : List Char)
  deriving DecidableEq, Repr

def decimal? (cs : List Char) : Option (Nat × List Char) :=
  let ds := cs.takeWhile Char.isDigit
  if ds = [] ∨ UInt64.size ≤ Decimal.value ds then none
  else some (Decimal.value ds, cs.dropWhile Char.isDigit)

def isNameChar (c : Char) : Bool :=
  isAlphabetic c || isNumeric c || c == '_'

def nameText (cs : List Char) (close : Char) : Option (List Char × List Char) :=
  match cs.takeWhile isNameChar, cs.dropWhile isNameChar with
  | id, c :: rest => if c = close then some (id, rest) else none
  | _, [] => none

def groupName? (close : Char) (cs : List Char) : Option (List Char × List Char) :=
  match nameText cs close with
  | some ([], _) => none
  | found => found

/-- A hyphen may come first: groups are then counted back from here. -/
def referenceName? (close : Char) : List Char → Option (List Char × List Char)
  | '-' :: cs => (nameText cs close).map fun (id, rest) => ('-' :: id, rest)
  | cs => groupName? close cs

def quotedName? : List Char → Option (List Char × List Char)
  | '<' :: cs => referenceName? '>' cs
  | c :: cs => if c = Char.ofNat 39 then referenceName? (Char.ofNat 39) cs else none
  | [] => none

def codePoint (n : Nat) : Except Defect Char :=
  if h : n.isValidChar then .ok (Char.ofNatAux n h) else .error .badCodePoint

def isHexDigit (c : Char) : Bool :=
  (hexDigit? c).isSome

/-- Hexadecimal digits: just `count` of them, or up to eight between braces. -/
def hexEscape (count : Nat) (cs : List Char) : Except Defect (Char × List Char) :=
  if (cs.take count).length = count ∧ (cs.take count).all isHexDigit then
    (codePoint (hexValue (cs.take count))).map fun c => (c, cs.drop count)
  else match cs with
    | '\x7b' :: cs =>
        let ds := cs.takeWhile isHexDigit
        match cs.dropWhile isHexDigit with
        | '\x7d' :: rest =>
            if ds = [] ∨ 8 < ds.length then .error .badCodePoint
            else (codePoint (hexValue ds)).map fun c => (c, rest)
        | _ => .error .badCodePoint
    | _ => .error .badCodePoint

def propertyText (cs : List Char) : Except Defect (List Char × List Char) :=
  match cs with
  | '\x7b' :: cs =>
      match splitAtFirst (· == '\x7d') cs with
      | some found => .ok found
      | none => .error .unknownProperty
  | c :: rest => .ok ([c], rest)
  | [] => .error .unknownEscape

/-- A property, folded before it is negated. -/
def propertyEscape (caseless negated : Bool) (cs : List Char) :
    Except Defect (CharSet × List Char) := do
  let (text, rest) ← propertyText cs
  match property? text with
  | some (unequal, s) => .ok ((s.foldedIf caseless).complIf (negated != unequal), rest)
  | none => .error .unknownProperty

def controlEscape? : Char → Option Char
  | 'a' => some '\x07'
  | 'e' => some '\x1b'
  | 'f' => some '\x0c'
  | 'n' => some '\n'
  | 'r' => some '\r'
  | 't' => some '\t'
  | 'v' => some '\x0b'
  | _ => none

def classEscape? : Char → Option CharSet
  | 'd' => some .digit
  | 'D' => some (.compl .digit)
  | 's' => some .space
  | 'S' => some (.compl .space)
  | 'w' => some .word
  | 'W' => some (.compl .word)
  | 'h' => some .hexDigit
  | 'H' => some (.compl .hexDigit)
  | _ => none

def positionEscape? : Char → Option Expression
  | 'A' => some (.anchor .textStart)
  | 'z' => some (.anchor .textEnd)
  | 'b' => some (.wordBoundary false)
  | 'B' => some (.wordBoundary true)
  | 'K' => some .restart
  | 'G' => some .searchStart
  | _ => none

/-- Any other character than a letter stands for itself. Between brackets so do the letters that
mean a position or a name elsewhere, and `b` is the backspace. -/
def literalEscape (inBracket : Bool) (c : Char) : Except Defect Char :=
  match controlEscape? c with
  | some d => .ok d
  | none =>
      if inBracket ∧ c = 'b' then .ok '\x08'
      else if c.isAlpha ∧ ¬(inBracket ∧ (c = 'k' ∨ (positionEscape? c).isSome)) then
        .error .unknownEscape
      else .ok c

/-- A word boundary takes no brace after it. -/
def escape (inBracket caseless : Bool) : List Char → Except Defect (Escape × List Char)
  | [] => .error .unknownEscape
  | c :: cs =>
      if c.isDigit then
        match decimal? (c :: cs) with
        | some (n, rest) => .ok (.number n, rest)
        | none => .error .unknownGroup
      else if c = 'k' ∧ inBracket = false then
        match quotedName? cs with
        | some (id, rest) => .ok (.name id, rest)
        | none => .error .badName
      else if c = 'x' then (hexEscape 2 cs).map fun (d, rest) => (.numbered d, rest)
      else if c = 'u' then (hexEscape 4 cs).map fun (d, rest) => (.numbered d, rest)
      else if c = 'U' then (hexEscape 8 cs).map fun (d, rest) => (.numbered d, rest)
      else if c = 'p' then (propertyEscape caseless false cs).map fun (s, rest) => (.set s, rest)
      else if c = 'P' then (propertyEscape caseless true cs).map fun (s, rest) => (.set s, rest)
      else if inBracket = false ∧ (c = 'b' ∨ c = 'B') ∧ cs.head? = some '\x7b' then
        .error .unknownEscape
      else match classEscape? c, if inBracket then none else positionEscape? c with
        | some s, _ => .ok (.set s, cs)
        | none, some e => .ok (.piece e, cs)
        | none, none => (literalEscape inBracket c).map fun d => (.exact d, cs)

/-- The items of a bracket up to the one that closes it, brackets counted as they come. Each step
takes at least one character; the first argument bounds their number. -/
def bracketItems (caseless : Bool) : Nat → Nat → List Char →
    Except Defect (List BracketItem × List Char)
  | 0, _, _ => .error .unclosedBracket
  | _ + 1, _, [] => .error .unclosedBracket
  | fuel + 1, nest, '\\' :: cs => do
      let (e, rest) ← escape true caseless cs
      let item ← match e with
        | .numbered c => pure (BracketItem.ofEscaped c)
        | .exact c => pure (BracketItem.ofEscaped c)
        | .set s => pure (BracketItem.set s)
        | _ => .error .badBracketItem
      let (items, rest) ← bracketItems caseless fuel nest rest
      return (item :: items, rest)
  | fuel + 1, nest, ']' :: cs =>
      if nest = 1 then .ok ([.bare ']'], cs)
      else do
        let (items, rest) ← bracketItems caseless fuel (nest - 1) cs
        return (.bare ']' :: items, rest)
  | fuel + 1, nest, c :: cs => do
      let (items, rest) ← bracketItems caseless fuel (if c = '[' then nest + 1 else nest) cs
      return (.bare c :: items, rest)

def bracketStart (cs : List Char) : List BracketItem × List Char :=
  let (hat, cs) := match cs with
    | '^' :: cs => ([BracketItem.bare '^'], cs)
    | cs => ([], cs)
  match cs with
  | ']' :: cs => (hat ++ [.bare ']'], cs)
  | cs => (hat, cs)

/-- The bracket expression after its opening bracket. Items that the set does not use up are
matched one after the other. -/
def bracket (caseless : Bool) (cs : List Char) : Except Defect (Expression × List Char) := do
  let (start, rest) := bracketStart cs
  let (items, rest) ← bracketItems caseless (rest.length + 1) 1 rest
  let (s, left) ← bracketSet caseless (start ++ items)
  return (.sequence (.char s :: left.map fun i => .char (i.toSet.foldedIf caseless)), rest)

end AnswerGrading.Regex
