import AnswerGrading.Authoring
import AnswerGrading.Proofs.SilentRules

namespace AnswerGrading

open FloatBits

variable {σ : Type}

def Scored.Tame (x : Scored) : Prop :=
  ∀ raw, x.raw = .ok raw → raw = 0.0 ∨ Positive raw

theorem Engine.tame_scoreAll (e : Engine σ) (answer : String) (s : σ) {rs : List Rule}
    (hrs : ∀ r ∈ rs, r.Addressable) : ∀ x ∈ e.scoreAll answer s rs, x.Tame := by
  intro x hx raw hraw
  obtain ⟨hr, t, ht⟩ := Engine.exists_scored_of_mem hx
  rw [ht] at hraw
  exact (hrs x.rule hr).zero_or_positive hraw

namespace Scored.Tame

variable {x : Scored}

theorem isNaN_raw (h : x.Tame) {raw : Float} (hraw : x.raw = .ok raw) : raw.isNaN = false :=
  isNaN_of_zero_or_positive (h raw hraw)

theorem silent (h : x.Tame) (hm : ¬x.Matches) : Silent x.raw := by
  intro raw hraw
  rcases h raw hraw with rfl | hpos
  · exact silent_zero 0.0 rfl
  · exact absurd ⟨raw, hraw, hpos.zero_lt⟩ hm

theorem isNaN_earned (h : x.Tame) {weighted : Float} (hw : x.Earns weighted) :
    weighted.isNaN = x.rule.fraction.isNaN := by
  obtain ⟨raw, hraw, hlt, rfl⟩ := hw
  rcases h raw hraw with rfl | hpos
  · exact absurd (silent_zero 0.0 rfl) (not_le_zero hlt)
  · exact hpos.isNaN_mul _

end Scored.Tame

/-- The first rule that matches is worth a NaN. -/
def LedByNaN (xs : List Scored) : Prop :=
  ∃ before x after, xs = before ++ x :: after ∧ (∀ y ∈ before, ¬y.Matches) ∧ x.Matches ∧
    x.rule.fraction.isNaN = true

theorem not_ledByNaN_nil : ¬LedByNaN [] := by
  rintro ⟨before, x, after, h, -⟩
  simp at h

theorem ledByNaN_cons_of_matches {x : Scored} (hx : x.Matches) (xs : List Scored) :
    LedByNaN (x :: xs) ↔ x.rule.fraction.isNaN = true := by
  constructor
  · rintro ⟨before, y, after, h, hbefore, -, hnan⟩
    cases before with
    | nil =>
        cases h
        exact hnan
    | cons z before =>
        cases h
        exact absurd hx (hbefore x (List.mem_cons_self ..))
  · intro hnan
    exact ⟨[], x, xs, rfl, by simp, hx, hnan⟩

theorem ledByNaN_cons_of_not_matches {x : Scored} (hx : ¬x.Matches) (xs : List Scored) :
    LedByNaN (x :: xs) ↔ LedByNaN xs := by
  constructor
  · rintro ⟨before, y, after, h, hbefore, hy, hnan⟩
    cases before with
    | nil =>
        cases h
        exact absurd hy hx
    | cons z before =>
        cases h
        refine ⟨before, y, after, rfl, ?_, hy, hnan⟩
        exact fun z hz => hbefore z (List.mem_cons_of_mem _ hz)
  · rintro ⟨before, y, after, rfl, hbefore, hy, hnan⟩
    refine ⟨x :: before, y, after, rfl, ?_, hy, hnan⟩
    intro z hz
    rcases List.mem_cons.1 hz with rfl | hz
    · exact hx
    · exact hbefore z hz

theorem LedByNaN.exists_rule {xs : List Scored} (h : LedByNaN xs) :
    ∃ r ∈ xs.map Scored.rule, r.fraction.isNaN = true := by
  obtain ⟨before, x, after, rfl, -, -, hnan⟩ := h
  exact ⟨x.rule, List.mem_map_of_mem (by simp), hnan⟩

namespace Best

def IsNaN : Best → Prop
  | none => False
  | some (_, weighted) => weighted.isNaN = true

/-- A NaN stays once it is there, and comes in no more once a number is. -/
theorem take_some (b : String × Float) (x : Scored) :
    ∃ b', Best.take (some b) x = some b' ∧ b'.2.isNaN = b.2.isNaN := by
  obtain ⟨id, current⟩ := b
  obtain ⟨r, result⟩ := x
  cases result with
  | error err => exact ⟨_, rfl, rfl⟩
  | ok raw =>
      rw [take_ok, improve]
      split
      · exact ⟨_, rfl, rfl⟩
      · split
        · rename_i hlt
          obtain ⟨hcurrent, hweighted⟩ := isNaN_of_lt hlt
          exact ⟨_, rfl, hweighted.trans hcurrent.symm⟩
        · exact ⟨_, rfl, rfl⟩

theorem isNaN_foldl_some (b : String × Float) (xs : List Scored) :
    IsNaN (xs.foldl Best.take (some b)) ↔ b.2.isNaN = true := by
  induction xs generalizing b with
  | nil => rfl
  | cons x xs ih =>
      obtain ⟨b', htake, hsame⟩ := take_some b x
      rw [List.foldl_cons, htake, ih, hsame]

theorem isNaN_foldl_none {xs : List Scored} (hxs : ∀ x ∈ xs, x.Tame) :
    IsNaN (xs.foldl Best.take none) ↔ LedByNaN xs := by
  induction xs with
  | nil => exact iff_of_false id not_ledByNaN_nil
  | cons x xs ih =>
      have hx := hxs x (List.mem_cons_self ..)
      rw [List.foldl_cons]
      -- the first match decides for the whole run, and what stands before it changes nothing
      by_cases hm : x.Matches
      · obtain ⟨weighted, hw⟩ := Scored.matches_iff.1 hm
        rw [take_of_earns hw, improve, isNaN_foldl_some, hx.isNaN_earned hw,
          ledByNaN_cons_of_matches hm]
      · rw [take_of_silent (hx.silent hm), ledByNaN_cons_of_not_matches hm]
        exact ih fun y hy => hxs y (List.mem_cons_of_mem _ hy)

end Best

def InUnit (x : Float) : Prop :=
  0.0 ≤ x ∧ x ≤ 1.0

instance (x : Float) : Decidable (InUnit x) :=
  inferInstanceAs (Decidable (_ ∧ _))

theorem inUnit_zero : InUnit 0.0 := by
  decide +kernel

theorem InUnit.isNaN {x : Float} (h : InUnit x) : x.isNaN = false :=
  (isNaN_of_le h.1).2

theorem isNaN_clampUnit {x : Float} (h : x.isNaN = true) : (clampUnit x).isNaN = true := by
  have hlow : ¬x < 0.0 := by
    intro hlt
    rw [(isNaN_of_lt hlt).1] at h
    cases h
  have hhigh : ¬x > 1.0 := by
    intro hlt
    rw [(isNaN_of_lt hlt).2] at h
    cases h
  unfold clampUnit
  dsimp only
  rwa [if_neg hlow, if_neg hhigh]

theorem inUnit_clampUnit {x : Float} (h : x.isNaN = false) : InUnit (clampUnit x) :=
  (clampedTo_clampUnit h).bounds h

namespace Best

theorem isNaN_fraction_iff (best : Best) : best.score.fraction.isNaN = true ↔ best.IsNaN := by
  match best with
  | none => exact iff_of_false (by decide) id
  | some (id, weighted) =>
      refine ⟨fun h => ?_, isNaN_clampUnit⟩
      by_contra hn
      have hclamped := inUnit_clampUnit (Bool.eq_false_of_not_eq_true hn)
      exact absurd h (Bool.not_eq_true _ ▸ hclamped.isNaN)

theorem inUnit_fraction_iff (best : Best) : InUnit best.score.fraction ↔ ¬best.IsNaN := by
  constructor
  · intro h hn
    rw [← isNaN_fraction_iff, h.isNaN] at hn
    cases hn
  · intro hn
    match best with
    | none => exact inUnit_zero
    | some (id, weighted) => exact inUnit_clampUnit (Bool.eq_false_of_not_eq_true hn)

end Best

section Grading

variable (e : Engine σ) (s : σ) {rs : List Rule}

theorem gradeDetailed_score_eq (hrs : ∀ r ∈ rs, r.Addressable) (answer : String) :
    (gradeDetailed e s rs answer).1.score =
      Best.score ((e.scoreAll answer s rs).foldl Best.take none) := by
  have htame := e.tame_scoreAll answer s hrs
  rw [gradeDetailed_eq, foldl_offer_eq_take fun x hx raw hraw => (htame x hx).isNaN_raw hraw]

theorem gradeResponse_some {answer : String} (h : answer ≠ "") :
    (gradeResponse e s rs (some answer)).1 = (grade e s rs answer).1.fraction := by
  simp only [gradeResponse, if_neg h]

/-- Whatever the fractions of the rules and whatever the engine does, what the three ways of grading
report lies in the unit interval, unless the first rule that matches is worth a NaN. -/
theorem inUnit_iff_not_ledByNaN (hrs : ∀ r ∈ rs, r.Addressable) (answer : String) :
    (InUnit (grade e s rs answer).1.fraction ↔ ¬LedByNaN (e.scoreAll answer s rs)) ∧
    (InUnit (gradeDetailed e s rs answer).1.score.fraction ↔
      ¬LedByNaN (e.scoreAll answer s rs)) ∧
    (∀ response, InUnit (gradeResponse e s rs response).1 ↔
      ∀ a, response = some a → a ≠ "" → ¬LedByNaN (e.scoreAll a s rs)) ∧
    (LedByNaN (e.scoreAll answer s rs) → (grade e s rs answer).1.fraction.isNaN = true ∧
      (gradeDetailed e s rs answer).1.score.fraction.isNaN = true) ∧
    ((∀ r ∈ rs, r.fraction.isNaN = false) → ¬LedByNaN (e.scoreAll answer s rs)) := by
  have hgrade (answer : String) : InUnit (grade e s rs answer).1.fraction ↔
      ¬LedByNaN (e.scoreAll answer s rs) := by
    rw [grade_fst_eq, Best.inUnit_fraction_iff, Best.isNaN_foldl_none (e.tame_scoreAll answer s hrs)]
  have hsame : (gradeDetailed e s rs answer).1.score = (grade e s rs answer).1 := by
    rw [gradeDetailed_score_eq e s hrs, grade_fst_eq]
  refine ⟨hgrade answer, ?_, ?_, ?_, ?_⟩
  · rw [hsame]
    exact hgrade answer
  · intro response
    match response with
    | none => exact iff_of_true inUnit_zero fun a ha => nomatch ha
    | some a =>
        by_cases ha : a = ""
        · subst ha
          exact iff_of_true inUnit_zero fun a h hne => absurd (Option.some.inj h).symm hne
        · rw [gradeResponse_some e s ha, hgrade]
          simp [ha]
  · intro hled
    rw [hsame, and_self, grade_fst_eq, Best.isNaN_fraction_iff,
      Best.isNaN_foldl_none (e.tame_scoreAll answer s hrs)]
    exact hled
  · intro hnumber hled
    obtain ⟨r, hr, hnan⟩ := hled.exists_rule
    rw [e.map_rule_scoreAll] at hr
    rw [hnumber r hr] at hnan
    cases hnan

end Grading

def endlessRules : List Rule := [
  .ofStored { id := "low", spec := "[[a|b]]//", fraction := -1.0 / 0.0 },
  .ofStored { id := "half", spec := "[[a]] [[b]]/O/", fraction := 0.1 },
  .ofStored { id := "high", spec := "[[a]]//", fraction := 1.0 / 0.0 }]

def unweightedRules : List Rule := [
  .ofStored { id := "unweighted", spec := "[[a]]//", fraction := 0.0 / 0.0 },
  .ofStored { id := "full", spec := "[[a|b]]//", fraction := 1 }]

theorem ledByNaN_unweightedRules : LedByNaN (Engine.regex.scoreAll "a" {} unweightedRules) := by
  rw [unweightedRules, Engine.scoreAll, ledByNaN_cons_of_matches]
  · decide +kernel
  · decide +kernel

theorem inUnit_iff_not_ledByNaN_endlessRules :
    (∀ r ∈ endlessRules, r.Addressable) ∧ (∀ r ∈ endlessRules, r.fraction.isNaN = false) ∧
    InUnit (grade Engine.regex {} endlessRules "a").1.fraction ∧
    InUnit (gradeDetailed Engine.regex {} endlessRules "a").1.score.fraction ∧
    InUnit (gradeResponse Engine.regex {} endlessRules none).1 ∧
    LedByNaN (Engine.regex.scoreAll "a" {} unweightedRules) ∧
    (grade Engine.regex {} unweightedRules "a").1.fraction.isNaN = true := by
  have hlength : ∀ r ∈ endlessRules, r.Addressable := by
    unfold Rule.Addressable
    decide +kernel
  have hlength' : ∀ r ∈ unweightedRules, r.Addressable := by
    unfold Rule.Addressable
    decide +kernel
  have hnumber : ∀ r ∈ endlessRules, r.fraction.isNaN = false := by
    decide +kernel
  obtain ⟨hgrade, hdetailed, hresponse, -, hled⟩ :=
    inUnit_iff_not_ledByNaN Engine.regex {} hlength "a"
  obtain ⟨-, -, -, hnan, -⟩ := inUnit_iff_not_ledByNaN Engine.regex {} hlength' "a"
  refine ⟨hlength, hnumber, hgrade.2 (hled hnumber), hdetailed.2 (hled hnumber),
    (hresponse none).2 ?_, ledByNaN_unweightedRules, (hnan ledByNaN_unweightedRules).1⟩
  intro a ha
  cases ha

/-- Checked slots with a NaN among their fractions, and an answer whose fraction is no number. -/
theorem compileSlots_unweightedRules :
    compileSlots .question unweightedRules = .ok unweightedRules ∧
    (grade Engine.regex {} unweightedRules "a").1.rule = some "unweighted" ∧
    ¬InUnit (grade Engine.regex {} unweightedRules "a").1.fraction ∧
    ¬InUnit (gradeDetailed Engine.regex {} unweightedRules "a").1.score.fraction ∧
    ¬InUnit (gradeResponse Engine.regex {} unweightedRules (some "a")).1 := by
  have hcheck : checkSlots .question unweightedRules = [] := by decide +kernel
  refine ⟨?_, ?_, ?_, ?_, ?_⟩
  · rw [compileSlots, hcheck]
    rfl
  all_goals decide +kernel

end AnswerGrading
