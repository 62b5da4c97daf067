import AnswerGrading.Answer
import AnswerGrading.Engine
import AnswerGrading.Fragment
import AnswerGrading.Grading.Assignment
import AnswerGrading.Specification

/-!
The raw score of an answer under one specification. A specification without the any-order option
asks the engine once; with it, each fragment asks about the pieces left until one is accepted. The
first question that fails ends the scoring.
-/

namespace AnswerGrading

variable {σ : Type}

/-- The pieces without the first one that the engine accepts, or `none` if it accepts none. -/
def Engine.takeFirst (e : Engine σ) (p : Pattern) :
    σ → List (List Char) → Except PatternError (Option (List (List Char))) × σ
  | s, [] => (.ok none, s)
  | s, piece :: pieces =>
      match e.ask s p (.ofList piece) with
      | (.error err, s) => (.error err, s)
      | (.ok true, s) => (.ok (some pieces), s)
      | (.ok false, s) =>
          match e.takeFirst p s pieces with
          | (.error err, s) => (.error err, s)
          | (.ok rest, s) => (.ok (rest.map (piece :: ·)), s)

def Engine.handOut (e : Engine σ) (flags : Flags) :
    σ → List String → List (List Char) → Except PatternError (List (List Char)) × σ
  | s, [], pieces => (.ok pieces, s)
  | s, f :: fs, pieces =>
      match e.takeFirst (Fragment.synthesize f flags) s pieces with
      | (.error err, s) => (.error err, s)
      | (.ok rest, s) => e.handOut flags s fs (rest.getD pieces)

namespace Specification

/-- An empty separator stands for the newline. -/
def pieces (b : Specification) (answer : List Char) : List (List Char) :=
  Text.splitAt (if b.separator = "" then ['\n'] else b.separator.toList) answer

def share (b : Specification) (pieces wrong : Nat) : Float :=
  Float.ofInt (anyOrderPoints b.fragments.length pieces wrong) / Float.ofNat b.fragments.length

def score (b : Specification) (e : Engine σ) (s : σ) (answer : String) :
    Except PatternError Float × σ :=
  if b.isDegenerate then (.ok 0.0, s)
  else
    let prepared := Answer.prepare b.flags.trimSpaces answer.toList
    if b.flags.anyOrder then
      let pieces := b.pieces prepared
      match e.handOut b.flags s b.fragments pieces with
      | (.error err, s) => (.error err, s)
      | (.ok wrong, s) => (.ok (b.share pieces.length wrong.length), s)
    else
      match e.ask s (Fragment.synthesize b.first b.flags) (.ofList prepared) with
      | (.error err, s) => (.error err, s)
      | (.ok matched, s) => (.ok (if matched then 1.0 else 0.0), s)

theorem score_of_isDegenerate {b : Specification} (h : b.isDegenerate = true) (e : Engine σ) (s : σ)
    (answer : String) : b.score e s answer = (.ok 0.0, s) := by
  simp [score, h]

end Specification

end AnswerGrading
