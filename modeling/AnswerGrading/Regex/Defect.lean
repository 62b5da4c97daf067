namespace AnswerGrading.Regex

inductive Defect where
  | unclosedGroup
  | unopenedGroup
  | tooDeep
  | nothingToRepeat
  | unknownOption
  | unknownEscape
  | badCodePoint
  | badName
  | unknownGroup
  | mixedReferences
  | emptyConditional
  | unclosedBracket
  | badBracketItem
  | badSpan
  | unknownProperty
  | badRepeat
  | unboundedLookbehind
  | tooLarge
  deriving DecidableEq, Repr

def Defect.message : Defect → String
  | .unclosedGroup => "a group is not closed"
  | .unopenedGroup => "a group is closed that was not opened"
  | .tooDeep => "groups are nested too deeply"
  | .nothingToRepeat => "a quantifier has nothing to repeat"
  | .unknownOption => "unknown option"
  | .unknownEscape => "unknown escape"
  | .badCodePoint => "not a code point"
  | .badName => "not a group name"
  | .unknownGroup => "no such group"
  | .mixedReferences => "named groups exclude numbered references"
  | .emptyConditional => "a conditional has no branches"
  | .unclosedBracket => "a bracket expression is not closed"
  | .badBracketItem => "not a member of a bracket expression"
  | .badSpan => "a span ends before it starts"
  | .unknownProperty => "unknown character property"
  | .badRepeat => "a repetition allows fewer rounds than it asks for"
  | .unboundedLookbehind => "lookbehind needs a fixed size"
  | .tooLarge => "the pattern is too large"

end AnswerGrading.Regex
