import AnswerGrading.Proofs.DetailedGrading

namespace AnswerGrading

variable {σ : Type} {e : Engine σ} {known : σ → Prop}
  {answers : Pattern → String → Except PatternError Bool}

def Silent (result : Except PatternError Float) : Prop :=
  ∀ raw, result = .ok raw → raw ≤ 0.0

theorem silent_error (err : PatternError) : Silent (.error err) := by
  intro raw h
  cases h

instance (result : Except PatternError Float) : Decidable (Silent result) :=
  match result with
  | .error err => isTrue (silent_error err)
  | .ok raw => decidable_of_iff (raw ≤ 0.0)
      ⟨fun hle _ ho => by cases ho; exact hle, fun h => h raw rfl⟩

theorem silent_zero : Silent (.ok 0.0) := by
  intro raw h
  cases h
  decide +kernel

theorem silent_of_isDegenerate {b : Specification} (h : b.isDegenerate = true) (e : Engine σ)
    (s : σ) (answer : String) : Silent (b.score e s answer).1 := by
  rw [Specification.score_of_isDegenerate h]
  exact silent_zero

theorem Silent.not_lt {raw : Float} (h : Silent (.ok raw)) : ¬raw > 0.0 := by
  intro hlt
  exact Scored.not_le_zero hlt (h raw rfl)

theorem Best.take_of_silent {x : Scored} (h : Silent x.raw) (best : Best) : best.take x = best := by
  obtain ⟨r, result⟩ := x
  cases result with
  | error err => rfl
  | ok raw => rw [take_ok, if_pos (h raw rfl)]

theorem Best.offer_of_silent {x : Scored} (h : Silent x.raw) (best : Best) :
    best.offer x = best := by
  obtain ⟨r, result⟩ := x
  cases result with
  | error err => rfl
  | ok raw => exact if_neg h.not_lt

theorem Scored.isMatched_of_silent {x : Scored} (h : Silent x.raw) :
    x.outcome.isMatched = false := by
  rw [isMatched_outcome, decide_eq_false_iff_not]
  rintro ⟨raw, hraw, hlt⟩
  exact not_le_zero hlt (h raw hraw)

theorem foldl_append_cons_of_fixed {α β : Type} {f : β → α → β} {x : α} (h : ∀ b, f b x = b)
    (before after : List α) (b : β) :
    (before ++ x :: after).foldl f b = (before ++ after).foldl f b := by
  rw [List.foldl_append, List.foldl_cons, h, List.foldl_append]

theorem Engine.Consistent.grade_fst_of_silent (h : e.Consistent known answers) {s t u : σ}
    (hs : known s) (ht : known t) (hu : known u) {r : Rule} {answer : String}
    (hr : Silent (r.body.score e u answer).1) (before after : List Rule) :
    (grade e s (before ++ r :: after) answer).1 = (grade e t (before ++ after) answer).1 := by
  have hsilent : Silent (e.scored u answer r).raw := hr
  rw [h.grade_fst hs hu, h.grade_fst ht hu, List.map_append, List.map_cons, List.map_append,
    foldl_append_cons_of_fixed (Best.take_of_silent hsilent)]

/-- A silent rule put in or taken out leaves both scores as they were, bit by bit, and puts in or
takes out its own line of the report. -/
theorem grade_silent (h : e.Consistent known answers) {s t u : σ} (hs : known s) (ht : known t)
    (hu : known u) {r : Rule} {answer : String} (hr : Silent (r.body.score e u answer).1)
    (before after : List Rule) :
    let whole := (gradeDetailed e s (before ++ r :: after) answer).1
    let rest := (gradeDetailed e t (before ++ after) answer).1
    (grade e s (before ++ r :: after) answer).1 = (grade e t (before ++ after) answer).1 ∧
    whole.score = rest.score ∧
    ∃ was entry later, whole.outcomes = was ++ entry :: later ∧ rest.outcomes = was ++ later ∧
      was.length = before.length ∧ Describes r (r.body.score e u answer).1 entry ∧
      entry.2.isMatched = false := by
  intro whole rest
  have hsilent : Silent (e.scored u answer r).raw := hr
  have hwhole : whole = _ := h.gradeDetailed_fst hs hu (before ++ r :: after) answer
  have hrest : rest = _ := h.gradeDetailed_fst ht hu (before ++ after) answer
  rw [List.map_append, List.map_cons] at hwhole
  rw [List.map_append] at hrest
  refine ⟨h.grade_fst_of_silent hs ht hu hr before after, ?_, ?_⟩
  · rw [hwhole, hrest]
    exact congrArg Best.score (foldl_append_cons_of_fixed (Best.offer_of_silent hsilent) _ _ _)
  · refine ⟨(before.map (e.scored u answer)).map Scored.entry, (e.scored u answer r).entry,
      (after.map (e.scored u answer)).map Scored.entry, ?_, ?_, ?_, ?_, ?_⟩
    · rw [hwhole, List.map_append, List.map_cons]
    · rw [hrest, List.map_append]
    · rw [List.length_map, List.length_map]
    · exact (e.scored u answer r).describes_entry
    · exact Scored.isMatched_of_silent hsilent

def partRule : Rule :=
  .ofStored { id := "half", spec := "[[a]] [[b]]/O/", fraction := 1 }

def brokenRule : Rule :=
  .ofStored { id := "broken", spec := "[[(]]//", fraction := 0.0 / 0.0 }

def emptyRule : Rule :=
  .ofStored { id := "empty", spec := "no options", fraction := 7 }

def tiedRule : Rule :=
  .ofStored { id := "tied", spec := "[[a]]//", fraction := 0.5 }

theorem grade_silent_brokenRule :
    let whole := (gradeDetailed Engine.regex {} [partRule, brokenRule, tiedRule] "a").1
    let rest := (gradeDetailed Engine.regex {} [partRule, tiedRule] "a").1
    (grade Engine.regex {} [partRule, brokenRule, tiedRule] "a").1 =
      (grade Engine.regex {} [partRule, tiedRule] "a").1 ∧
    whole.score = rest.score ∧ rest.score.rule = some "half" ∧
    (∃ was entry later, whole.outcomes = was ++ entry :: later ∧ rest.outcomes = was ++ later ∧
      was.length = 1 ∧ entry.1 = "broken") ∧
    (grade Engine.regex {} [emptyRule, partRule, tiedRule] "a").1 =
      (grade Engine.regex {} [partRule, tiedRule] "a").1 := by
  have hknown := Cache.faithful_empty
  have hbroken : Silent (brokenRule.body.score Engine.regex {} "a").1 := by decide +kernel
  have hdegenerate : emptyRule.body.isDegenerate = true := by decide +kernel
  have hempty : Silent (emptyRule.body.score Engine.regex {} "a").1 :=
    silent_of_isDegenerate hdegenerate Engine.regex {} "a"
  obtain ⟨hgrade, hscore, was, entry, later, hwhole, hrest, hlength, hentry, -⟩ :=
    grade_silent Engine.consistent_regex hknown hknown hknown hbroken [partRule] [tiedRule]
  obtain ⟨hgrade', -⟩ :=
    grade_silent Engine.consistent_regex hknown hknown hknown hempty [] [partRule, tiedRule]
  exact ⟨hgrade, hscore, by decide +kernel,
    ⟨was, entry, later, hwhole, hrest, hlength, hentry.id⟩, hgrade'⟩

end AnswerGrading
