import AnswerGrading.Proofs.DetailedGrading
import AnswerGrading.Proofs.PreparedAnswers
import Mathlib.Logic.Relation

namespace AnswerGrading

open Text

/-- One edit of an answer. Lines end at newlines, whatever separates the pieces; the last two edits
are made where padding does not count. -/
inductive Edit : Bool → List Char → List Char → Prop where
  | carriageReturn {padding : Bool} (before after : List Char) :
      Edit padding (before ++ after) (before ++ '\r' :: after)
  | blankEnd {padding : Bool} {a a' : List Char} (kept : List (List Char))
      {blanks blanks' : List (List Char)}
      (ha : lines a = kept ++ blanks) (ha' : lines a' = kept ++ blanks')
      (hb : ∀ l ∈ blanks, isBlank l = true) (hb' : ∀ l ∈ blanks', isBlank l = true) :
      Edit padding a a'
  | blankStart {a a' : List Char} (kept : List (List Char)) {blanks blanks' : List (List Char)}
      (ha : lines a = blanks ++ kept) (ha' : lines a' = blanks' ++ kept)
      (hb : ∀ l ∈ blanks, isBlank l = true) (hb' : ∀ l ∈ blanks', isBlank l = true) :
      Edit true a a'
  | gaps {a a' : List Char} (before after : List (List Char)) {left line right : List Char}
      (ha : lines a = before ++ line :: after)
      (ha' : lines a' = before ++ (left ++ line ++ right) :: after)
      (hl : ∀ c ∈ left, isGap c = true) (hr : ∀ c ∈ right, isGap c = true) :
      Edit true a a'

/-- What a chain of edits, made and unmade, leads to. -/
def SameAnswer (padding : Bool) : List Char → List Char → Prop :=
  Relation.EqvGen (Edit padding)

variable {σ : Type} {e : Engine σ} {known : σ → Prop}
  {answers : Pattern → String → Except PatternError Bool} {padding trims : Bool}

theorem withoutReturns_of_isGap {cs : List Char} (h : ∀ c ∈ cs, isGap c = true) :
    withoutReturns cs = cs := by
  apply withoutReturns_eq_self
  intro hr
  exact absurd (h '\r' hr) (by decide)

theorem map_withoutReturns_of_isBlank {ls : List (List Char)} (h : ∀ l ∈ ls, isBlank l = true) :
    ls.map withoutReturns = ls := by
  rw [List.map_congr_left (g := id), List.map_id]
  intro l hl
  exact withoutReturns_of_isGap (List.all_eq_true.1 (h l hl))

theorem Edit.prepare_eq {a a' : List Char} (h : Edit padding a a')
    (ht : padding = true → trims = true) : Answer.prepare trims a = Answer.prepare trims a' := by
  cases h with
  | carriageReturn before after =>
      rw [← Answer.prepare_withoutReturns, ← Answer.prepare_withoutReturns _ (before ++ '\r' :: _),
        withoutReturns_append, withoutReturns_append]
      rfl
  | blankEnd kept ha ha' hb hb' =>
      rw [Answer.prepare_eq, Answer.prepare_eq, ha, ha', List.map_append, List.map_append,
        map_withoutReturns_of_isBlank hb, map_withoutReturns_of_isBlank hb',
        Answer.keptLines_append_blank _ hb, Answer.keptLines_append_blank _ hb']
  | blankStart kept ha ha' hb hb' =>
      cases ht rfl
      rw [Answer.prepare_eq, Answer.prepare_eq, ha, ha', List.map_append, List.map_append,
        map_withoutReturns_of_isBlank hb, map_withoutReturns_of_isBlank hb',
        Answer.keptLines_blank_append hb, Answer.keptLines_blank_append hb']
  | gaps before after ha ha' hl hr =>
      cases ht rfl
      rename_i left line right
      have htrim : Answer.trimIf true (withoutReturns (left ++ line ++ right)) =
          Answer.trimIf true (withoutReturns line) := by
        rw [withoutReturns_append, withoutReturns_append, withoutReturns_of_isGap hl,
          withoutReturns_of_isGap hr]
        exact trimBy_append hl hr _
      rw [Answer.prepare_eq, Answer.prepare_eq, ha, ha', Answer.keptLines, Answer.keptLines]
      simp only [List.map_append, List.map_cons, htrim]

theorem SameAnswer.prepare_eq {a a' : List Char} (h : SameAnswer padding a a')
    (ht : padding = true → trims = true) : Answer.prepare trims a = Answer.prepare trims a' := by
  induction h with
  | rel a a' h => exact h.prepare_eq ht
  | refl a => rfl
  | symm a a' _ ih => exact ih.symm
  | trans a b c _ _ ih ih' => exact ih.trans ih'

theorem Specification.score_congr {b : Specification} {a a' : String}
    (h : Answer.prepare b.flags.trimSpaces a.toList = Answer.prepare b.flags.trimSpaces a'.toList)
    (e : Engine σ) (s : σ) : b.score e s a = b.score e s a' := by
  simp only [score, h]

/-- Answers that differ in edits which do not count for any rule get the same score and the same
report. -/
theorem grade_sameAnswer (h : e.Consistent known answers) {s t : σ} (hs : known s) (ht : known t)
    {rs : List Rule} (hrs : padding = true → ∀ r ∈ rs, r.body.flags.trimSpaces = true)
    {a a' : String} (ha : SameAnswer padding a.toList a'.toList) :
    (grade e s rs a).1 = (grade e t rs a').1 ∧
    (gradeDetailed e s rs a).1 = (gradeDetailed e t rs a').1 := by
  have hscored : rs.map (e.scored s a) = rs.map (e.scored s a') := by
    apply List.map_congr_left
    intro r hr
    have hprepared := ha.prepare_eq fun hp => hrs hp r hr
    rw [Engine.scored, Engine.scored, Specification.score_congr hprepared]
  constructor
  · rw [h.grade_fst hs hs, h.grade_fst ht hs, hscored]
  · rw [h.gradeDetailed_fst hs hs, h.gradeDetailed_fst ht hs, hscored]

def trimmingRules : List Rule := [
  .ofStored { id := "order", spec := "[[a b]] [[c]]/O/", fraction := 1 },
  .ofStored { id := "whole", spec := "[[a b\\nc]]//", fraction := 0.5 }]

def keepingRules : List Rule :=
  .ofStored { id := "kept", spec := "[[a]] [[b]]/Ot/\nseparator=, ", fraction := 2 } :: trimmingRules

theorem grade_sameAnswer_padded :
    (∀ r ∈ trimmingRules, r.body.flags.trimSpaces = true) ∧
    SameAnswer true "a b\nc".toList " \n\ta b\r\nc\n\n \t".toList ∧
    (grade Engine.regex {} trimmingRules "a b\nc").1 =
      (grade Engine.regex {} trimmingRules " \n\ta b\r\nc\n\n \t").1 ∧
    (grade Engine.regex {} trimmingRules "a b\nc").1.rule = some "order" ∧
    SameAnswer false "b, a".toList "b,\r a\n ".toList ∧
    (gradeDetailed Engine.regex {} keepingRules "b, a").1 =
      (gradeDetailed Engine.regex {} keepingRules "b,\r a\n ").1 ∧
    (grade Engine.regex {} keepingRules "b, a").1.rule = some "kept" := by
  have hknown := Cache.faithful_empty
  have htrims : ∀ r ∈ trimmingRules, r.body.flags.trimSpaces = true := by decide +kernel
  have hgaps : Edit true "a b\nc".toList "\ta b\nc".toList :=
    @Edit.gaps _ _ [] [['c']] ['\t'] ['a', ' ', 'b'] [] rfl rfl (by simp [isGap]) (by simp)
  have hstart : Edit true "\ta b\nc".toList " \n\ta b\nc".toList :=
    @Edit.blankStart _ _ [['\t', 'a', ' ', 'b'], ['c']] [] [[' ']] rfl rfl (by decide) (by decide)
  have hreturn : Edit true " \n\ta b\nc".toList " \n\ta b\r\nc".toList :=
    .carriageReturn " \n\ta b".toList "\nc".toList
  have hend : Edit true " \n\ta b\r\nc".toList " \n\ta b\r\nc\n\n \t".toList :=
    @Edit.blankEnd _ _ _ [[' '], ['\t', 'a', ' ', 'b', '\r'], ['c']] [] [[], [' ', '\t']]
      rfl rfl (by decide) (by decide)
  have hpadded : SameAnswer true "a b\nc".toList " \n\ta b\r\nc\n\n \t".toList :=
    .trans _ _ _ (.rel _ _ hgaps) (.trans _ _ _ (.rel _ _ hstart)
      (.trans _ _ _ (.rel _ _ hreturn) (.rel _ _ hend)))
  have hreturn' : Edit false "b, a".toList "b,\r a".toList :=
    .carriageReturn "b,".toList " a".toList
  have hend' : Edit false "b,\r a".toList "b,\r a\n ".toList :=
    @Edit.blankEnd _ _ _ [['b', ',', '\r', ' ', 'a']] [] [[' ']] rfl rfl (by decide) (by decide)
  have hkept : SameAnswer false "b, a".toList "b,\r a\n ".toList :=
    .trans _ _ _ (.rel _ _ hreturn') (.rel _ _ hend')
  obtain ⟨hgrade, -⟩ :=
    grade_sameAnswer Engine.consistent_regex hknown hknown (fun _ => htrims) hpadded
  have hfree : false = true → ∀ r ∈ keepingRules, r.body.flags.trimSpaces = true := by
    intro hp
    cases hp
  obtain ⟨-, hreport⟩ :=
    grade_sameAnswer Engine.consistent_regex hknown hknown hfree hkept
  exact ⟨htrims, hpadded, hgrade, by decide +kernel, hkept, hreport, by decide +kernel⟩

end AnswerGrading
