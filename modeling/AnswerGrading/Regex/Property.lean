import AnswerGrading.Regex.CharSet
import AnswerGrading.Unicode.Property
import AnswerGrading.Unicode.Script

/-!
Character properties by name: general categories and their groups, scripts, and a few properties
that hold or do not. Case, blanks, hyphens, underscores and a leading `is` do not count in names.
-/

namespace AnswerGrading.Regex

open AnswerGrading.Unicode

def normalLetters (cs : List Char) : List Char :=
  (cs.filter fun c => isAscii c && c != ' ' && c != '-' && c != '_').map Char.toLower

def normalName : List Char → List Char
  | a :: b :: cs =>
      if a.toLower = 'i' ∧ b.toLower = 's' then
        match normalLetters cs with
        | ['c'] => ['i', 's', 'c']
        | name => name
      else normalLetters (a :: b :: cs)
  | cs => normalLetters cs

def letters : List Category :=
  [.uppercaseLetter, .lowercaseLetter, .titlecaseLetter, .modifierLetter, .otherLetter]

def marks : List Category :=
  [.nonspacingMark, .spacingMark, .enclosingMark]

def numbers : List Category :=
  [.decimalNumber, .letterNumber, .otherNumber]

def punctuation : List Category :=
  [.connectorPunctuation, .dashPunctuation, .openPunctuation, .closePunctuation,
    .initialPunctuation, .finalPunctuation, .otherPunctuation]

def symbols : List Category :=
  [.mathSymbol, .currencySymbol, .modifierSymbol, .otherSymbol]

def separators : List Category :=
  [.spaceSeparator, .lineSeparator, .paragraphSeparator]

def assigned : CharSet :=
  .table (Category.rangesOf Category.all)

def categorySet (gs : List Category) : CharSet :=
  .table (Category.rangesOf gs)

def categoryNamed? (name : String) : Option CharSet :=
  match name with
  | "any" => some .any
  | "assigned" => some assigned
  | "ascii" => some (.table [⟨0x0, 0x7f⟩])
  | "l" | "letter" => some (categorySet letters)
  | "lc" | "casedletter" =>
      some (categorySet [.uppercaseLetter, .lowercaseLetter, .titlecaseLetter])
  | "lu" | "uppercaseletter" => some (categorySet [.uppercaseLetter])
  | "ll" | "lowercaseletter" => some (categorySet [.lowercaseLetter])
  | "lt" | "titlecaseletter" => some (categorySet [.titlecaseLetter])
  | "lm" | "modifierletter" => some (categorySet [.modifierLetter])
  | "lo" | "otherletter" => some (categorySet [.otherLetter])
  | "m" | "mark" | "combiningmark" => some (categorySet marks)
  | "mn" | "nonspacingmark" => some (categorySet [.nonspacingMark])
  | "mc" | "spacingmark" => some (categorySet [.spacingMark])
  | "me" | "enclosingmark" => some (categorySet [.enclosingMark])
  | "n" | "number" => some (categorySet numbers)
  | "nd" | "decimalnumber" | "digit" => some (categorySet [.decimalNumber])
  | "nl" | "letternumber" => some (categorySet [.letterNumber])
  | "no" | "othernumber" => some (categorySet [.otherNumber])
  | "p" | "punctuation" | "punct" => some (categorySet punctuation)
  | "pc" | "connectorpunctuation" => some (categorySet [.connectorPunctuation])
  | "pd" | "dashpunctuation" => some (categorySet [.dashPunctuation])
  | "ps" | "openpunctuation" => some (categorySet [.openPunctuation])
  | "pe" | "closepunctuation" => some (categorySet [.closePunctuation])
  | "pi" | "initialpunctuation" => some (categorySet [.initialPunctuation])
  | "pf" | "finalpunctuation" => some (categorySet [.finalPunctuation])
  | "po" | "otherpunctuation" => some (categorySet [.otherPunctuation])
  | "s" | "symbol" => some (categorySet symbols)
  | "sm" | "mathsymbol" => some (categorySet [.mathSymbol])
  | "sc" | "currencysymbol" => some (categorySet [.currencySymbol])
  | "sk" | "modifiersymbol" => some (categorySet [.modifierSymbol])
  | "so" | "othersymbol" => some (categorySet [.otherSymbol])
  | "z" | "separator" => some (categorySet separators)
  | "zs" | "spaceseparator" => some (categorySet [.spaceSeparator])
  | "zl" | "lineseparator" => some (categorySet [.lineSeparator])
  | "zp" | "paragraphseparator" => some (categorySet [.paragraphSeparator])
  | "c" | "other" =>
      some (.union (.compl assigned) (categorySet [.control, .format, .privateUse]))
  | "cc" | "control" | "cntrl" => some (categorySet [.control])
  | "cf" | "format" => some (categorySet [.format])
  | "cn" | "unassigned" => some (.compl assigned)
  | "co" | "privateuse" => some (categorySet [.privateUse])
  | _ => none

def identifierStart : CharSet :=
  .diff (.union (categorySet (.letterNumber :: letters)) (.table otherIdentifierStart))
    (.one '\u2e2f')

def identifierContinue : CharSet :=
  .union identifierStart
    (.union (categorySet [.nonspacingMark, .spacingMark, .decimalNumber, .connectorPunctuation])
      (.table otherIdentifierContinue))

def graphemeExtend : CharSet :=
  .union (categorySet [.nonspacingMark, .enclosingMark]) (.table otherGraphemeExtend)

def graphemeBase : CharSet :=
  .diff (.diff assigned graphemeExtend)
    (categorySet [.control, .format, .privateUse, .lineSeparator, .paragraphSeparator])

def caseIgnorable : CharSet :=
  .union
    (categorySet [.nonspacingMark, .enclosingMark, .format, .modifierLetter, .modifierSymbol])
    (.table otherCaseIgnorable)

def plainProperty? (name : String) : Option CharSet :=
  match name with
  | "alphabetic" | "alpha" => some (.table alphabetic)
  | "lowercase" | "lower" => some (.table lowercase)
  | "uppercase" | "upper" => some (.table uppercase)
  | "cased" => some (.table (lowercase ++ uppercase ++ Category.titlecaseLetter.ranges))
  | "caseignorable" | "ci" => some caseIgnorable
  | "whitespace" | "wspace" | "space" => some .space
  | "asciihexdigit" | "ahex" => some .hexDigit
  | "idstart" | "ids" => some identifierStart
  | "idcontinue" | "idc" => some identifierContinue
  | "xidstart" | "xids" => some (.diff identifierStart (.table unstableStart))
  | "xidcontinue" | "xidc" => some (.diff identifierContinue (.table unstableContinue))
  | "graphemebase" | "grbase" => some graphemeBase
  | "graphemeextend" | "grext" => some graphemeExtend
  | _ => (binaryProperty? name).map .table

def scriptNamed? (name : String) : Option CharSet :=
  (script? name).map .table

def propertyNamed? (cs : List Char) : Option CharSet :=
  let name := String.ofList (normalName cs)
  plainProperty? name <|> categoryNamed? name <|> scriptNamed? name

def propertyValue? (property value : List Char) : Option CharSet :=
  let value := String.ofList (normalName value)
  match String.ofList (normalName property) with
  | "generalcategory" | "gc" => categoryNamed? value
  | "script" | "sc" => scriptNamed? value
  | _ => none

def splitAtFirst (p : Char → Bool) (cs : List Char) : Option (List Char × List Char) :=
  match cs.dropWhile (fun c => !p c) with
  | _ :: rest => some (cs.takeWhile (fun c => !p c), rest)
  | [] => none

def splitAtUnequal : List Char → Option (List Char × List Char)
  | [] => none
  | '!' :: '=' :: cs => some ([], cs)
  | c :: cs => (splitAtUnequal cs).map fun (left, right) => (c :: left, right)

/-- What stands between the braces: a name, or `property=value`, where `:` will do for the sign and
`!=` asks for the complement. The flag says whether it does. -/
def property? (cs : List Char) : Option (Bool × CharSet) :=
  match splitAtUnequal cs with
  | some (p, v) => (propertyValue? p v).map (true, ·)
  | none =>
      match splitAtFirst (· == ':') cs <|> splitAtFirst (· == '=') cs with
      | some (p, v) => (propertyValue? p v).map (false, ·)
      | none => (propertyNamed? cs).map (false, ·)

end AnswerGrading.Regex
