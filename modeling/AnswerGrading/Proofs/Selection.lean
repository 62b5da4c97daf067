import AnswerGrading.Grading.Grade
import AnswerGrading.Proofs.FloatOrder

/-!
Which rule grading selects. The running best is the first of the rules scored so far whose weighted
score is largest, so that a later rule with an equal score never takes its place.
-/

namespace AnswerGrading

open FloatBits

variable {σ : Type}

structure Scored where
  rule : Rule
  raw : Except PatternError Float

/-- All rules scored in order, each in the state that the one before it left. -/
def Engine.scoreAll (e : Engine σ) (answer : String) : σ → List Rule → List Scored
  | _, [] => []
  | s, r :: rs =>
      let (raw, s) := r.body.score e s answer
      ⟨r, raw⟩ :: e.scoreAll answer s rs

theorem Engine.map_rule_scoreAll (e : Engine σ) (answer : String) (s : σ) (rs : List Rule) :
    (e.scoreAll answer s rs).map Scored.rule = rs := by
  induction rs generalizing s with
  | nil => rfl
  | cons r rs ih => exact congrArg (r :: ·) (ih _)

namespace Scored

def Matches (x : Scored) : Prop :=
  ∃ raw, x.raw = .ok raw ∧ 0.0 < raw

def Earns (x : Scored) (weighted : Float) : Prop :=
  ∃ raw, x.raw = .ok raw ∧ 0.0 < raw ∧ weighted = raw * x.rule.fraction

def Numeric (x : Scored) : Prop :=
  ∀ raw, x.raw = .ok raw → ¬raw ≤ 0.0 → (raw * x.rule.fraction).isNaN = false

instance (x : Scored) : Decidable x.Matches :=
  match h : x.raw with
  | .ok raw => decidable_of_iff (0.0 < raw)
      ⟨fun hlt => ⟨raw, h, hlt⟩, fun ⟨_, ho, hlt⟩ => by rw [h] at ho; cases ho; exact hlt⟩
  | .error _ => isFalse fun ⟨_, ho, _⟩ => nomatch h.symm.trans ho

instance (x : Scored) : Decidable x.Numeric :=
  match h : x.raw with
  | .ok raw => decidable_of_iff (¬raw ≤ 0.0 → (raw * x.rule.fraction).isNaN = false)
      ⟨fun hw _ ho => by rw [h] at ho; cases ho; exact hw, fun hw => hw raw h⟩
  | .error _ => isTrue fun _ ho => nomatch h.symm.trans ho

theorem not_le_zero {raw : Float} (h : 0.0 < raw) : ¬raw ≤ 0.0 := by
  intro hle
  obtain ⟨hzero, hraw⟩ := isNaN_of_lt h
  exact (not_lt_iff hzero hraw).2 hle h

theorem Numeric.zero_lt {x : Scored} (h : x.Numeric) {raw : Float} (hraw : x.raw = .ok raw)
    (hle : ¬raw ≤ 0.0) : 0.0 < raw := by
  have hweighted := h raw hraw hle
  cases hn : raw.isNaN with
  | true =>
      rw [isNaN_mul hn] at hweighted
      cases hweighted
  | false =>
      by_contra hlt
      exact hle ((not_lt_iff isNaN_zero hn).1 hlt)

theorem Numeric.earns {x : Scored} (h : x.Numeric) {weighted : Float} (hw : x.Earns weighted) :
    weighted.isNaN = false := by
  obtain ⟨raw, hraw, hlt, rfl⟩ := hw
  exact h raw hraw (not_le_zero hlt)

theorem matches_iff {x : Scored} : x.Matches ↔ ∃ weighted, x.Earns weighted := by
  constructor
  · rintro ⟨raw, hraw, hlt⟩
    exact ⟨_, raw, hraw, hlt, rfl⟩
  · rintro ⟨_, raw, hraw, hlt, -⟩
    exact ⟨raw, hraw, hlt⟩

theorem Earns.unique {x : Scored} {v w : Float} (hv : x.Earns v) (hw : x.Earns w) : v = w := by
  obtain ⟨_, hr, -, rfl⟩ := hv
  obtain ⟨_, hs, -, rfl⟩ := hw
  rw [hr] at hs
  cases hs
  rfl

end Scored

def Best.take (best : Best) (x : Scored) : Best :=
  match x.raw with
  | .ok raw => if raw ≤ 0.0 then best else best.improve x.rule.id (raw * x.rule.fraction)
  | .error _ => best

theorem Best.take_ok (best : Best) (r : Rule) (raw : Float) :
    best.take ⟨r, .ok raw⟩ =
      if raw ≤ 0.0 then best else best.improve r.id (raw * r.fraction) :=
  rfl

theorem gradeFrom_fst (e : Engine σ) (answer : String) (s : σ) (best : Best) (rs : List Rule) :
    (gradeFrom e answer s best rs).1 = (e.scoreAll answer s rs).foldl Best.take best := by
  induction rs generalizing s best with
  | nil => rfl
  | cons r rs ih =>
      rw [gradeFrom_cons, Engine.scoreAll]
      obtain ⟨raw, s', hr⟩ : ∃ raw s', r.body.score e s answer = (raw, s') := ⟨_, _, rfl⟩
      rw [hr]
      cases raw with
      | error err => exact ih s' best
      | ok raw =>
          dsimp only
          rw [List.foldl_cons, Best.take_ok]
          by_cases hle : raw ≤ 0.0
          · rw [if_pos hle, if_pos hle]
            exact ih s' best
          · rw [if_neg hle, if_neg hle]
            exact ih s' _

theorem grade_fst_eq (e : Engine σ) (s : σ) (rs : List Rule) (answer : String) :
    (grade e s rs answer).1 = Best.score ((e.scoreAll answer s rs).foldl Best.take none) := by
  rw [← gradeFrom_fst]
  rfl

theorem Best.take_of_earns {x : Scored} {weighted : Float} (h : x.Earns weighted) (best : Best) :
    best.take x = best.improve x.rule.id weighted := by
  obtain ⟨raw, hraw, hlt, rfl⟩ := h
  simp only [take, hraw, if_neg (Scored.not_le_zero hlt)]

theorem Best.take_of_not_matches {x : Scored} (hx : x.Numeric) (h : ¬x.Matches) (best : Best) :
    best.take x = best := by
  cases hraw : x.raw with
  | error err => simp only [take, hraw]
  | ok raw =>
      have hle : raw ≤ 0.0 := by
        by_contra hle
        exact h ⟨raw, hraw, hx.zero_lt hraw hle⟩
      simp only [take, hraw, if_pos hle]

/-- The rule earns more than those before it and no less than those after it. -/
def Leads (xs : List Scored) (x : Scored) (weighted : Float) : Prop :=
  ∃ before after, xs = before ++ x :: after ∧ x.Earns weighted ∧
    (∀ y ∈ before, ∀ v, y.Earns v → v < weighted) ∧ ∀ y ∈ after, ∀ v, y.Earns v → v ≤ weighted

theorem Leads.mem {xs : List Scored} {x : Scored} {weighted : Float} (h : Leads xs x weighted) :
    x ∈ xs := by
  obtain ⟨before, after, rfl, -⟩ := h
  exact List.mem_append_right _ (List.mem_cons_self ..)

theorem Leads.earns {xs : List Scored} {x : Scored} {weighted : Float} (h : Leads xs x weighted) :
    x.Earns weighted := by
  obtain ⟨before, after, rfl, hx, -⟩ := h
  exact hx

theorem Leads.le {xs : List Scored} {x : Scored} {weighted : Float} (h : Leads xs x weighted)
    (hxs : ∀ y ∈ xs, y.Numeric) {y : Scored} (hy : y ∈ xs) {v : Float} (hv : y.Earns v) :
    v ≤ weighted := by
  have hnum := (hxs x h.mem).earns h.earns
  obtain ⟨before, after, rfl, hx, hbefore, hafter⟩ := h
  have hv' := (hxs y hy).earns hv
  rcases List.mem_append.1 hy with hy | hy
  · have hlt := hbefore y hy v hv
    rw [lt_iff hv' hnum] at hlt
    exact (le_iff hv' hnum).2 hlt.le
  · rcases List.mem_cons.1 hy with rfl | hy
    · rw [hv.unique hx]
      exact (le_iff hnum hnum).2 le_rfl
    · exact hafter y hy v hv

theorem Leads.concat {xs : List Scored} {x y : Scored} {weighted : Float}
    (h : Leads xs x weighted) (hy : ∀ v, y.Earns v → v ≤ weighted) :
    Leads (xs ++ [y]) x weighted := by
  obtain ⟨before, after, rfl, hx, hbefore, hafter⟩ := h
  refine ⟨before, after ++ [y], by simp, hx, hbefore, ?_⟩
  intro z hz v hv
  rcases List.mem_append.1 hz with hz | hz
  · exact hafter z hz v hv
  · rw [List.mem_singleton.1 hz] at hv
    exact hy v hv

theorem leads_last {xs : List Scored} {x : Scored} {weighted : Float} (hx : x.Earns weighted)
    (h : ∀ y ∈ xs, ∀ v, y.Earns v → v < weighted) : Leads (xs ++ [x]) x weighted := by
  refine ⟨xs, [], rfl, hx, h, ?_⟩
  intro y hy
  cases hy

/-- The running best after the rules of `xs`: none of them matches, or the best one leads. -/
def Best.Correct (xs : List Scored) : Best → Prop
  | none => ∀ x ∈ xs, ¬x.Matches
  | some (id, weighted) => ∃ x, Leads xs x weighted ∧ x.rule.id = id

theorem Best.Correct.take {xs : List Scored} {best : Best} (h : best.Correct xs) {x : Scored}
    (hxs : ∀ y ∈ xs, y.Numeric) (hx : x.Numeric) : (best.take x).Correct (xs ++ [x]) := by
  by_cases hmatches : x.Matches
  · obtain ⟨weighted, hw⟩ := Scored.matches_iff.1 hmatches
    rw [take_of_earns hw]
    match best with
    | none =>
        refine ⟨x, leads_last hw ?_, rfl⟩
        intro y hy v hv
        exact absurd (Scored.matches_iff.2 ⟨v, hv⟩) (h y hy)
    | some (id, current) =>
        obtain ⟨y, hy, hid⟩ := h
        have hcurrent := (hxs y hy.mem).earns hy.earns
        rw [improve]
        -- only a strictly larger score takes the place, so that of equals the first stays
        split
        · rename_i hlt
          refine ⟨x, leads_last hw ?_, rfl⟩
          intro z hz v hv
          have hle := hy.le hxs hz hv
          rw [le_iff ((hxs z hz).earns hv) hcurrent] at hle
          rw [gt_iff_lt, lt_iff hcurrent (hx.earns hw)] at hlt
          exact (lt_iff ((hxs z hz).earns hv) (hx.earns hw)).2 (hle.trans_lt hlt)
        · rename_i hlt
          refine ⟨y, hy.concat ?_, hid⟩
          intro v hv
          rw [hv.unique hw]
          exact (not_lt_iff hcurrent (hx.earns hw)).1 hlt
  · rw [take_of_not_matches hx hmatches]
    match best with
    | none =>
        intro y hy
        rcases List.mem_append.1 hy with hy | hy
        · exact h y hy
        · rw [List.mem_singleton.1 hy]
          exact hmatches
    | some (id, current) =>
        obtain ⟨y, hy, hid⟩ := h
        refine ⟨y, hy.concat ?_, hid⟩
        intro v hv
        exact absurd (Scored.matches_iff.2 ⟨v, hv⟩) hmatches

theorem Best.correct_foldl {xs : List Scored} (h : ∀ x ∈ xs, x.Numeric) :
    Best.Correct xs (xs.foldl Best.take none) := by
  induction xs using List.reverseRecOn with
  | nil =>
      intro x hx
      cases hx
  | append_singleton xs x ih =>
      have hxs : ∀ y ∈ xs, y.Numeric := fun y hy => h y (List.mem_append_left _ hy)
      rw [List.foldl_append]
      exact (ih hxs).take hxs (h x (by simp))

def ClampedTo (x y : Float) : Prop :=
  (x < 0.0 → y = 0.0) ∧ (1.0 < x → y = 1.0) ∧ (0.0 ≤ x → x ≤ 1.0 → y = x)

theorem clampedTo_clampUnit {x : Float} (h : x.isNaN = false) : ClampedTo x (clampUnit x) := by
  have hone : (1.0 : Float).isNaN = false := rfl
  unfold clampUnit
  refine ⟨?_, ?_, ?_⟩
  · intro hlt
    rw [if_pos hlt]
    decide +kernel
  · intro hlt
    have hzero : ¬x < 0.0 := by
      rw [lt_iff h isNaN_zero]
      have horder : order 0.0 < order 1.0 := by decide +kernel
      exact (horder.trans ((lt_iff hone h).1 hlt)).not_gt
    dsimp only
    rw [if_neg hzero, if_pos hlt]
  · intro hlow hhigh
    dsimp only
    rw [if_neg ((not_lt_iff h isNaN_zero).2 hlow), if_neg ((not_lt_iff hone h).2 hhigh)]

theorem ClampedTo.bounds {x y : Float} (hx : x.isNaN = false) (h : ClampedTo x y) : 0.0 ≤ y ∧ y ≤ 1.0 := by
  have hone : (1.0 : Float).isNaN = false := rfl
  by_cases hlow : x < 0.0
  · rw [h.1 hlow]
    decide +kernel
  by_cases hhigh : 1.0 < x
  · rw [h.2.1 hhigh]
    decide +kernel
  have hlow := (not_lt_iff hx isNaN_zero).1 hlow
  have hhigh := (not_lt_iff hone hx).1 hhigh
  rw [h.2.2 hlow hhigh]
  exact ⟨hlow, hhigh⟩

/-- Grading names no rule exactly when none has a raw score above zero. Otherwise it names the first
of those rules whose weighted score is largest, with that score clamped. -/
theorem grade_selects_first_largest (e : Engine σ) (s : σ) (rs : List Rule) (answer : String)
    (hnumeric : ∀ x ∈ e.scoreAll answer s rs, x.Numeric) :
    let scored := e.scoreAll answer s rs
    let score := (grade e s rs answer).1
    scored.map Scored.rule = rs ∧
    (score.rule = none ∧ score.fraction = 0.0 ↔ ∀ x ∈ scored, ¬x.Matches) ∧
    ((∃ x ∈ scored, x.Matches) → ∃ x weighted, Leads scored x weighted ∧
      (∀ y ∈ scored, ∀ v, y.Earns v → v ≤ weighted) ∧
      score.rule = some x.rule.id ∧ ClampedTo weighted score.fraction ∧
      0.0 ≤ score.fraction ∧ score.fraction ≤ 1.0) := by
  intro scored score
  have hcorrect := Best.correct_foldl hnumeric
  have hscore : score = (scored.foldl Best.take none).score := grade_fst_eq e s rs answer
  refine ⟨e.map_rule_scoreAll answer s rs, ?_, ?_⟩
  · cases hbest : scored.foldl Best.take none with
    | none =>
        rw [hbest] at hcorrect hscore
        rw [hscore]
        exact iff_of_true ⟨rfl, rfl⟩ hcorrect
    | some best =>
        rw [hbest] at hcorrect hscore
        rw [hscore]
        obtain ⟨x, hx, -⟩ := hcorrect
        refine iff_of_false (fun h => nomatch h.1) ?_
        intro h
        exact h x hx.mem (Scored.matches_iff.2 ⟨_, hx.earns⟩)
  · rintro ⟨y, hy, hmatches⟩
    cases hbest : scored.foldl Best.take none with
    | none =>
        rw [hbest] at hcorrect
        exact absurd hmatches (hcorrect y hy)
    | some best =>
        obtain ⟨id, weighted⟩ := best
        rw [hbest] at hcorrect hscore
        obtain ⟨x, hx, rfl⟩ := hcorrect
        have hw := (hnumeric x hx.mem).earns hx.earns
        have hclamped := clampedTo_clampUnit hw
        rw [hscore]
        exact ⟨x, weighted, hx, fun y hy v hv => hx.le hnumeric hy hv, rfl, hclamped,
          hclamped.bounds hw⟩

def manyWeights : List Rule := [
  .ofStored { id := "broken", spec := "[[(]]//", fraction := 3 },
  .ofStored { id := "minus", spec := "[[a]]//", fraction := -1 },
  .ofStored { id := "half", spec := "[[a]] [[b]]/O/", fraction := 4 },
  .ofStored { id := "twice", spec := "[[a|b]]//", fraction := 2 },
  .ofStored { id := "nothing", spec := "[[a]]//", fraction := 0 },
  .ofStored { id := "other", spec := "[[b]]//", fraction := 5 }]

theorem grade_selects_first_largest_manyWeights :
    let scored := Engine.regex.scoreAll "a" {} manyWeights
    let score := (grade Engine.regex {} manyWeights "a").1
    (∀ x ∈ scored, x.Numeric) ∧ (∃ x ∈ scored, x.Matches) ∧ score.rule = some "half" ∧
    ∃ x weighted, Leads scored x weighted ∧ x.rule.id = "half" ∧
      ClampedTo weighted score.fraction := by
  have hnumeric : ∀ x ∈ Engine.regex.scoreAll "a" {} manyWeights, x.Numeric := by
    decide +kernel
  have hmatches : ∃ x ∈ Engine.regex.scoreAll "a" {} manyWeights, x.Matches := by
    decide +kernel
  have hhalf : (grade Engine.regex {} manyWeights "a").1.rule = some "half" := by
    decide +kernel
  obtain ⟨-, -, hselect⟩ := grade_selects_first_largest Engine.regex {} manyWeights "a" hnumeric
  obtain ⟨x, weighted, hleads, -, hrule, hclamped, -⟩ := hselect hmatches
  have hid : x.rule.id = "half" := Option.some.inj (hrule.symm.trans hhalf)
  exact ⟨hnumeric, hmatches, hhalf, x, weighted, hleads, hid, hclamped⟩

end AnswerGrading
