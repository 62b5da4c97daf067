import AnswerGrading.Proofs.EngineSimulation
import AnswerGrading.Proofs.PositiveQuotient
import AnswerGrading.Proofs.Recognition
import AnswerGrading.Proofs.Selection

/-!
Detailed grading beside plain grading. The one takes up a raw score above zero and the other leaves
out a raw score of at most zero; the two agree because a raw score is always a number, whatever the
weights are.
-/

namespace AnswerGrading

open FloatBits

variable {σ : Type} {e : Engine σ} {known : σ → Prop}
  {answers : Pattern → String → Except PatternError Bool}

/-- In a known state the engine answers by pattern and subject alone, and goes to a known state. -/
structure Engine.Consistent (e : Engine σ) (known : σ → Prop)
    (answers : Pattern → String → Except PatternError Bool) : Prop where
  answer : ∀ {s}, known s → ∀ p subject, (e.ask s p subject).1 = answers p subject
  stays : ∀ {s}, known s → ∀ p subject, known (e.ask s p subject).2

theorem Engine.consistent_regex : Engine.regex.Consistent Cache.Faithful Pattern.matches where
  answer h p subject := Cache.ask_fst h p subject
  stays h p subject := Cache.faithful_ask h p subject

namespace Engine.Consistent

theorem simulates (h : e.Consistent known answers) :
    Simulates (fun s t => known s ∧ known t) e e := by
  intro s t hst p subject
  refine ⟨answers p subject, (e.ask s p subject).2, (e.ask t p subject).2, ?_, ?_, ?_⟩
  · exact Prod.ext (h.answer hst.1 p subject) rfl
  · exact Prod.ext (h.answer hst.2 p subject) rfl
  · exact ⟨h.stays hst.1 p subject, h.stays hst.2 p subject⟩

theorem score_eq (h : e.Consistent known answers) {s t : σ} (hs : known s) (ht : known t)
    (b : Specification) (answer : String) : (b.score e s answer).1 = (b.score e t answer).1 :=
  (Simulates.score h.simulates ⟨hs, ht⟩ b answer).fst_eq

theorem known_score (h : e.Consistent known answers) {s : σ} (hs : known s) (b : Specification)
    (answer : String) : known (b.score e s answer).2 :=
  (Simulates.score h.simulates ⟨hs, hs⟩ b answer).snd.1

theorem scoreAll_eq (h : e.Consistent known answers) {s u : σ} (hs : known s) (hu : known u)
    (rs : List Rule) (answer : String) :
    e.scoreAll answer s rs = rs.map fun r => ⟨r, (r.body.score e u answer).1⟩ := by
  induction rs generalizing s with
  | nil => rfl
  | cons r rs ih =>
      rw [List.map_cons, ← ih (h.known_score hs r.body answer), h.score_eq hu hs]
      rfl

end Engine.Consistent

theorem anyOrderPoints_le (fragments pieces wrong : Nat) :
    anyOrderPoints fragments pieces wrong ≤ fragments := by
  unfold anyOrderPoints
  dsimp only
  omega

namespace Specification

theorem share_zero_or_positive {b : Specification} (hb : b.fragments.length < 2 ^ 64)
    (pieces wrong : Nat) : b.share pieces wrong = 0.0 ∨ Positive (b.share pieces wrong) := by
  obtain ⟨k, hk⟩ := Int.eq_ofNat_of_zero_le
    (anyOrderPoints_nonneg b.fragments.length pieces wrong)
  have hle := anyOrderPoints_le b.fragments.length pieces wrong
  have hpos : 0 < b.fragments.length := Nat.succ_pos b.others.length
  have hlog : b.fragments.length.log2 < 64 := (Nat.log2_lt hpos.ne').2 hb
  rw [share, hk]
  rcases Nat.eq_zero_or_pos k with rfl | hkpos
  · exact .inl (zero_ofNat_div hpos (by omega))
  · have hklog : k.log2 < 64 := (Nat.log2_lt hkpos.ne').2 (by omega)
    exact .inr (positive_ofNat_div hkpos hpos hklog hlog)

theorem score_zero_or_positive {b : Specification} (hb : b.fragments.length < 2 ^ 64) {s : σ}
    {answer : String} {raw : Float} (h : (b.score e s answer).1 = .ok raw) :
    raw = 0.0 ∨ Positive raw := by
  unfold score at h
  split at h
  · cases h
    exact .inl rfl
  · dsimp only at h
    split at h
    · split at h
      · cases h
      · cases h
        exact share_zero_or_positive hb _ _
    · split at h
      · cases h
      · rename_i matched _ _
        cases h
        cases matched with
        | true => exact .inr positive_one
        | false => exact .inl rfl

end Specification

/-- As for every text in memory, which takes up less than half of the addresses of 64 bits. -/
def Rule.Addressable (r : Rule) : Prop :=
  r.spec.length < 2 ^ 63

theorem Rule.Addressable.zero_or_positive {r : Rule} (h : r.Addressable) {s : σ} {answer : String}
    {raw : Float} (hraw : (r.body.score e s answer).1 = .ok raw) : raw = 0.0 ∨ Positive raw := by
  have hlength := Specification.length_fragments_parse_le r.spec
  rw [← r.body_eq] at hlength
  rw [Addressable] at h
  exact Specification.score_zero_or_positive (b := r.body) (by omega) hraw

theorem Rule.Addressable.isNaN_score {r : Rule} (h : r.Addressable) {s : σ} {answer : String}
    {raw : Float} (hraw : (r.body.score e s answer).1 = .ok raw) : raw.isNaN = false :=
  isNaN_of_zero_or_positive (h.zero_or_positive hraw)

def Best.offer (best : Best) (x : Scored) : Best :=
  match x.raw with
  | .ok raw => if raw > 0.0 then best.improve x.rule.id (raw * x.rule.fraction) else best
  | .error _ => best

namespace Scored

def outcome (x : Scored) : RuleOutcome :=
  match x.raw with
  | .ok raw => if raw > 0.0 then .matched raw (raw * x.rule.fraction) else .noMatch
  | .error err => .unprocessable err

def entry (x : Scored) : String × RuleOutcome :=
  (x.rule.id, x.outcome)

theorem outcome_of_lt {r : Rule} {raw : Float} (h : raw > 0.0) :
    outcome ⟨r, .ok raw⟩ = .matched raw (raw * r.fraction) :=
  if_pos h

theorem outcome_of_not_lt {r : Rule} {raw : Float} (h : ¬raw > 0.0) :
    outcome ⟨r, .ok raw⟩ = .noMatch :=
  if_neg h

theorem isMatched_outcome (x : Scored) : x.outcome.isMatched = decide x.Matches := by
  obtain ⟨r, result⟩ := x
  rw [Bool.eq_iff_iff, decide_eq_true_iff]
  cases result with
  | error err => exact iff_of_false Bool.false_ne_true fun ⟨_, h, _⟩ => nomatch h
  | ok raw =>
      by_cases hlt : raw > 0.0
      · rw [outcome_of_lt hlt]
        exact iff_of_true rfl ⟨raw, rfl, hlt⟩
      · rw [outcome_of_not_lt hlt]
        refine iff_of_false Bool.false_ne_true ?_
        rintro ⟨_, h, h'⟩
        cases h
        exact hlt h'

end Scored

theorem reportFrom_step (e : Engine σ) {answer : String} {s s' : σ} (best : Best) {r : Rule}
    {raw : Except PatternError Float} (h : r.body.score e s answer = (raw, s')) (rs : List Rule) :
    reportFrom e answer s best (r :: rs) =
      ((reportFrom e answer s' (best.offer ⟨r, raw⟩) rs).1,
        Scored.entry ⟨r, raw⟩ :: (reportFrom e answer s' (best.offer ⟨r, raw⟩) rs).2.1,
        (reportFrom e answer s' (best.offer ⟨r, raw⟩) rs).2.2) := by
  rw [reportFrom_cons, h]
  cases raw with
  | error err => rfl
  | ok raw =>
      simp only [Best.offer, Scored.entry, Scored.outcome]
      split <;> rfl

theorem reportFrom_fst (e : Engine σ) (answer : String) (s : σ) (best : Best) (rs : List Rule) :
    (reportFrom e answer s best rs).1 = (e.scoreAll answer s rs).foldl Best.offer best := by
  induction rs generalizing s best with
  | nil => rfl
  | cons r rs ih =>
      rw [reportFrom_step e best rfl, ih]
      rfl

theorem reportFrom_outcomes (e : Engine σ) (answer : String) (s : σ) (best : Best)
    (rs : List Rule) :
    (reportFrom e answer s best rs).2.1 = (e.scoreAll answer s rs).map Scored.entry := by
  induction rs generalizing s best with
  | nil => rfl
  | cons r rs ih =>
      rw [reportFrom_step e best rfl, ih]
      rfl

theorem gradeDetailed_eq (e : Engine σ) (s : σ) (rs : List Rule) (answer : String) :
    (gradeDetailed e s rs answer).1 =
      ⟨Best.score ((e.scoreAll answer s rs).foldl Best.offer none),
        (e.scoreAll answer s rs).map Scored.entry⟩ := by
  rw [← reportFrom_fst, ← reportFrom_outcomes e answer s none rs]
  rfl

theorem Best.offer_eq_take {x : Scored} (h : ∀ raw, x.raw = .ok raw → raw.isNaN = false)
    (best : Best) : best.offer x = best.take x := by
  obtain ⟨r, raw⟩ := x
  cases raw with
  | error err => rfl
  | ok raw =>
      -- the two tests differ on the NaN alone
      have hiff : raw > 0.0 ↔ ¬raw ≤ 0.0 := by
        rw [← not_lt_iff isNaN_zero (h raw rfl), not_not, gt_iff_lt]
      simp only [offer, take, hiff, ite_not]

theorem foldl_offer_eq_take {xs : List Scored}
    (h : ∀ x ∈ xs, ∀ raw, x.raw = .ok raw → raw.isNaN = false) (best : Best) :
    xs.foldl Best.offer best = xs.foldl Best.take best := by
  induction xs generalizing best with
  | nil => rfl
  | cons x xs ih =>
      rw [List.foldl_cons, List.foldl_cons, Best.offer_eq_take (h x (List.mem_cons_self ..))]
      exact ih (fun y hy => h y (List.mem_cons_of_mem _ hy)) _

def Engine.scored (e : Engine σ) (s : σ) (answer : String) (r : Rule) : Scored :=
  ⟨r, (r.body.score e s answer).1⟩

theorem Engine.exists_scored_of_mem {e : Engine σ} {s : σ} {rs : List Rule} {answer : String}
    {x : Scored} (hx : x ∈ e.scoreAll answer s rs) :
    x.rule ∈ rs ∧ ∃ t, x = e.scored t answer x.rule := by
  induction rs generalizing s with
  | nil => cases hx
  | cons r rs ih =>
      rcases List.mem_cons.1 hx with rfl | hx
      · exact ⟨List.mem_cons_self .., s, rfl⟩
      · exact ⟨List.mem_cons_of_mem _ (ih hx).1, (ih hx).2⟩

namespace Engine.Consistent

theorem grade_fst (h : e.Consistent known answers) {s u : σ} (hs : known s) (hu : known u)
    (rs : List Rule) (answer : String) :
    (grade e s rs answer).1 =
      Best.score ((rs.map (e.scored u answer)).foldl Best.take none) := by
  have hscored : e.scoreAll answer s rs = rs.map (e.scored u answer) :=
    h.scoreAll_eq hs hu rs answer
  rw [grade_fst_eq, hscored]

theorem gradeDetailed_fst (h : e.Consistent known answers) {s u : σ} (hs : known s)
    (hu : known u) (rs : List Rule) (answer : String) :
    (gradeDetailed e s rs answer).1 =
      ⟨Best.score ((rs.map (e.scored u answer)).foldl Best.offer none),
        (rs.map (e.scored u answer)).map Scored.entry⟩ := by
  have hscored : e.scoreAll answer s rs = rs.map (e.scored u answer) :=
    h.scoreAll_eq hs hu rs answer
  rw [gradeDetailed_eq, hscored]

end Engine.Consistent

def Best.Among (xs : List Scored) : Best → Prop
  | none => ∀ x ∈ xs, ¬x.Matches
  | some (id, _) => ∃ x ∈ xs, x.Matches ∧ x.rule.id = id

theorem Best.Among.mono {xs ys : List Scored} {best : Best} (h : best.Among xs)
    (hys : ∀ y ∈ ys, ¬y.Matches) : best.Among (xs ++ ys) := by
  match best with
  | none =>
      intro y hy
      exact (List.mem_append.1 hy).elim (h y) (hys y)
  | some (id, weighted) =>
      obtain ⟨x, hx, hm, hid⟩ := h
      exact ⟨x, List.mem_append_left _ hx, hm, hid⟩

theorem Best.Among.offer {xs : List Scored} {best : Best} (h : best.Among xs) (x : Scored) :
    (best.offer x).Among (xs ++ [x]) := by
  by_cases hm : x.Matches
  · have hx : x ∈ xs ++ [x] := List.mem_append_right _ (List.mem_singleton.2 rfl)
    obtain ⟨raw, hraw, hlt⟩ := hm
    have hoffer : best.offer x = best.improve x.rule.id (raw * x.rule.fraction) := by
      simp only [Best.offer, hraw]
      exact if_pos hlt
    rw [hoffer]
    match best with
    | none => exact ⟨x, hx, ⟨raw, hraw, hlt⟩, rfl⟩
    | some (id, current) =>
        rw [improve]
        split
        · exact ⟨x, hx, ⟨raw, hraw, hlt⟩, rfl⟩
        · obtain ⟨y, hy, hym, hid⟩ := h
          exact ⟨y, List.mem_append_left _ hy, hym, hid⟩
  · have hoffer : best.offer x = best := by
      obtain ⟨r, raw⟩ := x
      cases raw with
      | error err => rfl
      | ok raw => exact if_neg fun hlt => hm ⟨raw, rfl, hlt⟩
    rw [hoffer]
    refine h.mono ?_
    intro y hy
    rw [List.mem_singleton.1 hy]
    exact hm

theorem Best.among_foldl (xs : List Scored) : Best.Among xs (xs.foldl Best.offer none) := by
  induction xs using List.reverseRecOn with
  | nil =>
      intro x hx
      cases hx
  | append_singleton xs x ih =>
      rw [List.foldl_append]
      exact ih.offer x

theorem Best.Among.exists_of_rule {xs : List Scored} {best : Best} (h : best.Among xs) {id : String}
    (hid : best.score.rule = some id) : ∃ x ∈ xs, x.Matches ∧ x.rule.id = id := by
  match best with
  | none => cases hid
  | some (current, weighted) =>
      cases hid
      exact h

theorem Best.Among.isMatch_iff {xs : List Scored} {best : Best} (h : best.Among xs) :
    best.score.isMatch = true ↔ ∃ x ∈ xs, x.Matches := by
  match best with
  | none =>
      refine iff_of_false (fun hn => nomatch hn) ?_
      rintro ⟨x, hx, hm⟩
      exact h x hx hm
  | some (id, weighted) =>
      obtain ⟨x, hx, hm, -⟩ := h
      exact iff_of_true rfl ⟨x, hx, hm⟩

structure Describes (r : Rule) (result : Except PatternError Float)
    (entry : String × RuleOutcome) : Prop where
  id : entry.1 = r.id
  unprocessable : ∀ err, entry.2 = .unprocessable err ↔ result = .error err
  matched : ∀ raw weighted, entry.2 = .matched raw weighted ↔
    result = .ok raw ∧ raw > 0.0 ∧ weighted = raw * r.fraction
  noMatch : entry.2 = .noMatch ↔ ∃ raw, result = .ok raw ∧ ¬raw > 0.0

theorem Scored.describes_entry (x : Scored) : Describes x.rule x.raw x.entry := by
  obtain ⟨r, result⟩ := x
  rw [entry]
  cases result with
  | error err => exact ⟨rfl, by simp [outcome], by simp [outcome], by simp [outcome]⟩
  | ok raw =>
      by_cases hlt : raw > 0.0
      · rw [outcome_of_lt hlt]
        refine ⟨rfl, by simp, ?_, by simp [hlt]⟩
        intro raw' weighted
        simp only [RuleOutcome.matched.injEq, Except.ok.injEq]
        constructor
        · rintro ⟨rfl, rfl⟩
          exact ⟨rfl, hlt, rfl⟩
        · rintro ⟨rfl, -, rfl⟩
          exact ⟨rfl, rfl⟩
      · rw [outcome_of_not_lt hlt]
        refine ⟨rfl, by simp, ?_, by simp [hlt]⟩
        intro raw' weighted
        simp only [reduceCtorEq, Except.ok.injEq, false_iff]
        rintro ⟨rfl, h, -⟩
        exact hlt h

theorem Report.matched_entries (score : Score) (xs : List Scored) :
    Report.matched ⟨score, xs.map Scored.entry⟩ =
      (xs.filter fun x => decide x.Matches).map (·.rule.id) := by
  rw [Report.matched, List.filter_map, List.map_map]
  refine congrArg (List.map fun x : Scored => x.rule.id) (List.filter_congr ?_)
  intro x hx
  exact x.isMatched_outcome

theorem Report.matched_ne_nil_iff {score : Score} {xs : List Scored} :
    Report.matched ⟨score, xs.map Scored.entry⟩ ≠ [] ↔ ∃ x ∈ xs, x.Matches := by
  rw [matched_entries, ne_eq, List.map_eq_nil_iff, List.filter_eq_nil_iff]
  simp

/-- Over an engine that answers by pattern and subject alone, the report holds the score of plain
grading, bit by bit, and says of each rule in order what its score says. -/
theorem gradeDetailed_agrees (h : e.Consistent known answers) {s t : σ} (hs : known s)
    (ht : known t) {rs : List Rule} (hrs : ∀ r ∈ rs, r.Addressable) (answer : String) :
    let report := (gradeDetailed e s rs answer).1
    let score := (grade e t rs answer).1
    report.score = score ∧
    (∀ u, known u →
      List.Forall₂ (fun r entry => Describes r (r.body.score e u answer).1 entry) rs
        report.outcomes ∧
      report.matched = (rs.filter fun r =>
        decide (Scored.Matches ⟨r, (r.body.score e u answer).1⟩)).map (·.id)) ∧
    (∀ id, score.rule = some id → id ∈ report.matched) ∧
    (score.isMatch = true ↔ report.matched ≠ []) := by
  intro report score
  have hscored := h.scoreAll_eq hs hs rs answer
  have hnumber : ∀ x ∈ e.scoreAll answer s rs, ∀ raw, x.raw = .ok raw → raw.isNaN = false := by
    intro x hx raw hraw
    rw [hscored] at hx
    obtain ⟨r, hr, rfl⟩ := List.mem_map.1 hx
    exact (hrs r hr).isNaN_score hraw
  have hreport : report =
      ⟨Best.score ((e.scoreAll answer s rs).foldl Best.offer none),
        (e.scoreAll answer s rs).map Scored.entry⟩ := by
    rw [← reportFrom_fst, ← reportFrom_outcomes e answer s none rs]
    rfl
  have hscore : score = Best.score ((e.scoreAll answer s rs).foldl Best.offer none) := by
    rw [foldl_offer_eq_take hnumber, hscored, ← h.scoreAll_eq ht hs, ← gradeFrom_fst]
    rfl
  have hamong := Best.among_foldl (e.scoreAll answer s rs)
  refine ⟨hreport ▸ hscore.symm, ?_, ?_, ?_⟩
  · intro u hu
    rw [hreport, h.scoreAll_eq hs hu]
    constructor
    · rw [List.map_map, List.forall₂_map_right_iff, List.forall₂_same]
      intro r hr
      exact Scored.describes_entry ⟨r, _⟩
    · rw [Report.matched_entries, List.filter_map, List.map_map]
      rfl
  · intro id hid
    rw [hscore] at hid
    rw [hreport, Report.matched_entries]
    obtain ⟨x, hx, hm, he⟩ := hamong.exists_of_rule hid
    exact List.mem_map.2 ⟨x, List.mem_filter.2 ⟨hx, decide_eq_true hm⟩, he⟩
  · rw [hscore, hreport, Report.matched_ne_nil_iff]
    exact hamong.isMatch_iff

def sharedIds : List Rule := [
  .ofStored { id := "broken", spec := "[[(]]//", fraction := 3 },
  .ofStored { id := "twin", spec := "[[a]]//", fraction := 0.0 / 0.0 },
  .ofStored { id := "other", spec := "[[b]]//", fraction := 5 },
  .ofStored { id := "twin", spec := "[[a]] [[b]]/O/", fraction := 4 },
  .ofStored { id := "last", spec := "[[a|b]]//", fraction := 2 }]

theorem gradeDetailed_agrees_sharedIds :
    let report := (gradeDetailed Engine.regex {} sharedIds "a").1
    let score := (grade Engine.regex {} sharedIds "a").1
    report.score = score ∧ score.rule = some "twin" ∧ report.matched = ["twin", "twin", "last"] ∧
    report.outcomes.length = 5 := by
  have hknown := Cache.faithful_empty
  have hrs : ∀ r ∈ sharedIds, r.Addressable := by
    unfold Rule.Addressable
    decide +kernel
  obtain ⟨hscore, heach, -, -⟩ :=
    gradeDetailed_agrees Engine.consistent_regex hknown hknown hrs "a"
  obtain ⟨houtcomes, hmatched⟩ := heach {} hknown
  refine ⟨hscore, by decide +kernel, ?_, houtcomes.length_eq.symm⟩
  rw [hmatched]
  decide +kernel

end AnswerGrading
