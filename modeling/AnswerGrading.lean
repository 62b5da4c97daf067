import AnswerGrading.Unicode.Letter
import AnswerGrading.Unicode.Script
import AnswerGrading.Unicode.Folding
import AnswerGrading.Regex.Regular
import AnswerGrading.Regex.Expression
import AnswerGrading.Regex.Property
import AnswerGrading.Regex.Bracket
import AnswerGrading.Regex.Reader
import AnswerGrading.Regex.Program
import AnswerGrading.Text
import AnswerGrading.Fragment
import AnswerGrading.Engine
import AnswerGrading.Specification.Diagnostic
import AnswerGrading.Answer
import AnswerGrading.Grading.Score
import AnswerGrading.Grading.Assignment
import AnswerGrading.Authoring
import AnswerGrading.Blob.Directory
import AnswerGrading.Proofs.FloatBits
import AnswerGrading.Proofs.BlobRoundTrip
import AnswerGrading.Proofs.Sections
import AnswerGrading.Proofs.SpecificationText
import AnswerGrading.Proofs.Calls
import AnswerGrading.Proofs.EngineMeaning
import AnswerGrading.Proofs.FragmentPasses
import AnswerGrading.Proofs.FragmentTokens
import AnswerGrading.Proofs.GreedyAssignment
import AnswerGrading.Proofs.LiteralFragment
import AnswerGrading.Proofs.SinglePass
import AnswerGrading.Proofs.LargestAssignment
import AnswerGrading.Proofs.UniformAcceptance
import AnswerGrading.Proofs.CacheHistory
import AnswerGrading.Proofs.FloatOrder
import AnswerGrading.Proofs.FloatQuotient
import AnswerGrading.Proofs.Selection
import AnswerGrading.Proofs.Recognition
import AnswerGrading.Proofs.DetailedGrading
import AnswerGrading.Proofs.Diagnosis
import AnswerGrading.Proofs.OlderForm
import AnswerGrading.Proofs.SilentRules
import AnswerGrading.Proofs.PreparedAnswers
import AnswerGrading.Proofs.AnswerEdits
import AnswerGrading.Proofs.FloatRounding
import AnswerGrading.Proofs.PlainFragment
import AnswerGrading.Proofs.ConsistentScoring
import AnswerGrading.Proofs.WordLists
import AnswerGrading.Proofs.AlteredBlobs
import AnswerGrading.Proofs.AppendedComments
import AnswerGrading.Proofs.GroupClosing
import AnswerGrading.Proofs.FloatValue
import AnswerGrading.Proofs.AuthoringChecks
import AnswerGrading.Proofs.DigestReading
import AnswerGrading.Proofs.InsertedPiece
import AnswerGrading.Proofs.PositiveQuotient
import AnswerGrading.Proofs.UnitFractions
import AnswerGrading.Proofs.BrokenFragments
import AnswerGrading.Proofs.CallTraces
import AnswerGrading.Proofs.DelimitedPatterns
import AnswerGrading.Proofs.KeyOrder
import AnswerGrading.Proofs.PreparedLines
import AnswerGrading.Proofs.EmptyFragments
import AnswerGrading.Proofs.GroupSyntax
import AnswerGrading.Proofs.AnchorReading
import AnswerGrading.Proofs.ForkedReading
import AnswerGrading.Proofs.WiderReading
import AnswerGrading.Proofs.SpaceRuns
import AnswerGrading.Proofs.MarkedBrackets
import AnswerGrading.Proofs.MachineRuns
import AnswerGrading.Proofs.MachineCode
import AnswerGrading.Proofs.PositionalExpressions
import AnswerGrading.Proofs.PositionalSearch
import AnswerGrading.Proofs.PositionalPatterns
import AnswerGrading.Proofs.WidenedSpaces
import AnswerGrading.Proofs.PassAlignment
import AnswerGrading.Proofs.LastWrites
import AnswerGrading.Proofs.LastSettings
import AnswerGrading.Proofs.BlobLengths
