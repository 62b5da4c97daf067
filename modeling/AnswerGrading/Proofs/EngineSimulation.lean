import AnswerGrading.Grading.Grade

/-!
Engines that cannot be told apart. Where related states answer alike and stay related, scoring and
grading give the same results.
-/

namespace AnswerGrading

variable {σ τ α : Type} {R : σ → τ → Prop} {e : Engine σ} {e' : Engine τ} {s : σ} {t : τ}

def Alike (R : σ → τ → Prop) (r : α × σ) (r' : α × τ) : Prop :=
  ∃ a s t, r = (a, s) ∧ r' = (a, t) ∧ R s t

theorem Alike.fst_eq {r : α × σ} {r' : α × τ} (h : Alike R r r') : r.1 = r'.1 := by
  obtain ⟨a, s, t, rfl, rfl, -⟩ := h
  rfl

theorem Alike.snd {r : α × σ} {r' : α × τ} (h : Alike R r r') : R r.2 r'.2 := by
  obtain ⟨a, s, t, rfl, rfl, hs⟩ := h
  exact hs

def Simulates (R : σ → τ → Prop) (e : Engine σ) (e' : Engine τ) : Prop :=
  ∀ {s t}, R s t → ∀ p subject, Alike R (e.ask s p subject) (e'.ask t p subject)

namespace Simulates

theorem takeFirst (h : Simulates R e e') (hs : R s t) (p : Pattern) (pieces : List (List Char)) :
    Alike R (e.takeFirst p s pieces) (e'.takeFirst p t pieces) := by
  induction pieces generalizing s t with
  | nil => exact ⟨_, s, t, rfl, rfl, hs⟩
  | cons piece pieces ih =>
      obtain ⟨answer, s', t', ha, ha', hs'⟩ := h hs p (.ofList piece)
      rw [Engine.takeFirst, Engine.takeFirst, ha, ha']
      match answer with
      | .error err => exact ⟨_, s', t', rfl, rfl, hs'⟩
      | .ok true => exact ⟨_, s', t', rfl, rfl, hs'⟩
      | .ok false =>
          obtain ⟨r, s'', t'', hr, hr', hs''⟩ := ih hs'
          dsimp only
          rw [hr, hr']
          cases r <;> exact ⟨_, s'', t'', rfl, rfl, hs''⟩

theorem handOut (h : Simulates R e e') (hs : R s t) (flags : Flags) (fs : List String)
    (pieces : List (List Char)) :
    Alike R (e.handOut flags s fs pieces) (e'.handOut flags t fs pieces) := by
  induction fs generalizing s t pieces with
  | nil => exact ⟨_, s, t, rfl, rfl, hs⟩
  | cons f fs ih =>
      obtain ⟨r, s', t', hr, hr', hs'⟩ := h.takeFirst hs (Fragment.synthesize f flags) pieces
      rw [Engine.handOut, Engine.handOut, hr, hr']
      cases r with
      | error err => exact ⟨_, s', t', rfl, rfl, hs'⟩
      | ok found => exact ih hs' (found.getD pieces)

theorem score (h : Simulates R e e') (hs : R s t) (b : Specification) (answer : String) :
    Alike R (b.score e s answer) (b.score e' t answer) := by
  unfold Specification.score
  by_cases hd : b.isDegenerate = true
  · rw [if_pos hd, if_pos hd]
    exact ⟨_, s, t, rfl, rfl, hs⟩
  rw [if_neg hd, if_neg hd]
  by_cases ho : b.flags.anyOrder = true
  · obtain ⟨r, s', t', hr, hr', hs'⟩ := h.handOut hs b.flags b.fragments
      (b.pieces (Answer.prepare b.flags.trimSpaces answer.toList))
    dsimp only
    rw [if_pos ho, if_pos ho, hr, hr']
    cases r <;> exact ⟨_, s', t', rfl, rfl, hs'⟩
  · obtain ⟨r, s', t', hr, hr', hs'⟩ := h hs (Fragment.synthesize b.first b.flags)
      (.ofList (Answer.prepare b.flags.trimSpaces answer.toList))
    dsimp only
    rw [if_neg ho, if_neg ho, hr, hr']
    cases r <;> exact ⟨_, s', t', rfl, rfl, hs'⟩

theorem gradeFrom (h : Simulates R e e') (hs : R s t) (answer : String) (best : Best)
    (rs : List Rule) :
    Alike R (AnswerGrading.gradeFrom e answer s best rs)
      (AnswerGrading.gradeFrom e' answer t best rs) := by
  induction rs generalizing s t best with
  | nil => exact ⟨_, s, t, rfl, rfl, hs⟩
  | cons r rs ih =>
      obtain ⟨raw, s', t', hr, hr', hs'⟩ := h.score hs r.body answer
      rw [gradeFrom_cons, gradeFrom_cons, hr, hr']
      cases raw with
      | error err => exact ih hs' best
      | ok raw =>
          dsimp only
          split
          · exact ih hs' best
          · exact ih hs' _

theorem grade (h : Simulates R e e') (hs : R s t) (rs : List Rule) (answer : String) :
    Alike R (AnswerGrading.grade e s rs answer) (AnswerGrading.grade e' t rs answer) := by
  obtain ⟨best, s', t', hb, hb', hs'⟩ := h.gradeFrom hs answer none rs
  rw [AnswerGrading.grade, AnswerGrading.grade, hb, hb']
  exact ⟨_, s', t', rfl, rfl, hs'⟩

theorem reportFrom (h : Simulates R e e') (hs : R s t) (answer : String) (best : Best)
    (rs : List Rule) :
    ∃ best' outcomes s' t',
      AnswerGrading.reportFrom e answer s best rs = (best', outcomes, s') ∧
      AnswerGrading.reportFrom e' answer t best rs = (best', outcomes, t') ∧ R s' t' := by
  induction rs generalizing s t best with
  | nil => exact ⟨best, [], s, t, rfl, rfl, hs⟩
  | cons r rs ih =>
      obtain ⟨raw, s', t', hr, hr', hs'⟩ := h.score hs r.body answer
      rw [reportFrom_cons, reportFrom_cons, hr, hr']
      cases raw with
      | error err =>
          obtain ⟨best', outcomes, s'', t'', ho, ho', hs''⟩ := ih hs' best
          refine ⟨best', (r.id, .unprocessable err) :: outcomes, s'', t'', ?_, ?_, hs''⟩
          · dsimp only
            rw [ho]
          · dsimp only
            rw [ho']
      | ok raw =>
          dsimp only
          split
          · obtain ⟨best', outcomes, s'', t'', ho, ho', hs''⟩ :=
              ih hs' (best.improve r.id (raw * r.fraction))
            rw [ho, ho']
            exact ⟨best', _, s'', t'', rfl, rfl, hs''⟩
          · obtain ⟨best', outcomes, s'', t'', ho, ho', hs''⟩ := ih hs' best
            rw [ho, ho']
            exact ⟨best', _, s'', t'', rfl, rfl, hs''⟩

theorem gradeDetailed (h : Simulates R e e') (hs : R s t) (rs : List Rule) (answer : String) :
    Alike R (AnswerGrading.gradeDetailed e s rs answer)
      (AnswerGrading.gradeDetailed e' t rs answer) := by
  obtain ⟨best, outcomes, s', t', hb, hb', hs'⟩ := h.reportFrom hs answer none rs
  rw [AnswerGrading.gradeDetailed, AnswerGrading.gradeDetailed, hb, hb']
  exact ⟨_, s', t', rfl, rfl, hs'⟩

theorem gradeResponse (h : Simulates R e e') (hs : R s t) (rs : List Rule)
    (answer : Option String) :
    ∃ fraction state s' t',
      AnswerGrading.gradeResponse e s rs answer = (fraction, state, s') ∧
      AnswerGrading.gradeResponse e' t rs answer = (fraction, state, t') ∧ R s' t' := by
  cases answer with
  | none => exact ⟨_, _, s, t, rfl, rfl, hs⟩
  | some a =>
      rw [AnswerGrading.gradeResponse, AnswerGrading.gradeResponse]
      by_cases ha : a = ""
      · simp only [if_pos ha]
        exact ⟨_, _, s, t, rfl, rfl, hs⟩
      · obtain ⟨score, s', t', hg, hg', hs'⟩ := h.grade hs rs a
        simp only [if_neg ha, hg, hg']
        exact ⟨_, _, s', t', rfl, rfl, hs'⟩

end Simulates

end AnswerGrading
