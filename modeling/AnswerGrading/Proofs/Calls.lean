import AnswerGrading.Grading.Scoring

/-!
The calls that scoring makes. Recording them changes neither the result nor the state of the engine,
and their order is fixed by the fragments and the pieces.
-/

namespace AnswerGrading

variable {σ : Type} {p : Pattern} {flags : Flags}

def Call.Answered (c : Call) : Prop :=
  ∃ accepted, c.answer = .ok accepted

instance (c : Call) : Decidable c.Answered :=
  match h : c.answer with
  | .ok accepted => isTrue ⟨accepted, h⟩
  | .error _ => isFalse fun ⟨_, ha⟩ => nomatch h.symm.trans ha

def Pattern.refusal (p : Pattern) (piece : List Char) : Call :=
  ⟨p, .ofList piece, .ok false⟩

def Pattern.acceptance (p : Pattern) (piece : List Char) : Call :=
  ⟨p, .ofList piece, .ok true⟩

def Pattern.breakdown (p : Pattern) (piece : List Char) (err : PatternError) : Call :=
  ⟨p, .ofList piece, .error err⟩

/-- The calls that look for a piece, in the order of the pieces, and the pieces that remain when one
was found. -/
inductive Inquiry (p : Pattern) :
    List (List Char) → List Call → Except PatternError (Option (List (List Char))) → Prop where
  | refused (pieces : List (List Char)) : Inquiry p pieces (pieces.map p.refusal) (.ok none)
  | accepted (before : List (List Char)) (piece : List Char) (after : List (List Char)) :
      Inquiry p (before ++ piece :: after) (before.map p.refusal ++ [p.acceptance piece])
        (.ok (some (before ++ after)))
  | failed (before : List (List Char)) (piece : List Char) (after : List (List Char))
      (err : PatternError) :
      Inquiry p (before ++ piece :: after) (before.map p.refusal ++ [p.breakdown piece err])
        (.error err)

theorem Inquiry.cons {pieces : List (List Char)} {calls : List Call}
    {r : Except PatternError (Option (List (List Char)))} (h : Inquiry p pieces calls r)
    (piece : List Char) :
    Inquiry p (piece :: pieces) (p.refusal piece :: calls) (r.map (·.map (piece :: ·))) := by
  cases h with
  | refused => exact .refused (piece :: pieces)
  | accepted before found after => exact .accepted (piece :: before) found after
  | failed before found after err => exact .failed (piece :: before) found after err

/-- The calls of all fragments, each asking about the pieces that those before it left. -/
inductive HandsOut (flags : Flags) :
    List String → List (List Char) → List Call → Except PatternError (List (List Char)) → Prop where
  | done (pieces : List (List Char)) : HandsOut flags [] pieces [] (.ok pieces)
  | next {f : String} {fs : List String} {pieces : List (List Char)} {calls more : List Call}
      {found : Option (List (List Char))} {r : Except PatternError (List (List Char))}
      (first : Inquiry (Fragment.synthesize f flags) pieces calls (.ok found))
      (rest : HandsOut flags fs (found.getD pieces) more r) :
      HandsOut flags (f :: fs) pieces (calls ++ more) r
  | failed {f : String} {fs : List String} {pieces : List (List Char)} {calls : List Call}
      {err : PatternError}
      (first : Inquiry (Fragment.synthesize f flags) pieces calls (.error err)) :
      HandsOut flags (f :: fs) pieces calls (.error err)

namespace Engine

theorem recorded_ask (e : Engine σ) (s : σ) (log : List Call) (p : Pattern) (subject : String) :
    e.recorded.ask (s, log) p subject = ((e.ask s p subject).1, (e.ask s p subject).2,
      ⟨p, subject, (e.ask s p subject).1⟩ :: log) :=
  rfl

theorem takeFirst_recorded (e : Engine σ) (p : Pattern) (s : σ) (log : List Call)
    (pieces : List (List Char)) :
    ∃ calls, e.recorded.takeFirst p (s, log) pieces =
        ((e.takeFirst p s pieces).1, (e.takeFirst p s pieces).2, calls.reverse ++ log) ∧
      Inquiry p pieces calls (e.takeFirst p s pieces).1 := by
  induction pieces generalizing s log with
  | nil => exact ⟨[], rfl, .refused []⟩
  | cons piece pieces ih =>
      rw [takeFirst, takeFirst, recorded_ask]
      obtain ⟨answer, s', ha⟩ : ∃ answer s', e.ask s p (.ofList piece) = (answer, s') :=
        ⟨_, _, rfl⟩
      rw [ha]
      match answer with
      | .error err => exact ⟨[p.breakdown piece err], rfl, .failed [] piece pieces err⟩
      | .ok true => exact ⟨[p.acceptance piece], rfl, .accepted [] piece pieces⟩
      | .ok false =>
          obtain ⟨calls, hc, hi⟩ := ih s' (p.refusal piece :: log)
          -- the log the run holds, with the refusal unfolded
          have hc : e.recorded.takeFirst p (s', ⟨p, .ofList piece, .ok false⟩ :: log) pieces = _ :=
            hc
          have hi := hi.cons piece
          obtain ⟨r, s'', hr⟩ : ∃ r s'', e.takeFirst p s' pieces = (r, s'') := ⟨_, _, rfl⟩
          rw [hr] at hc hi
          refine ⟨p.refusal piece :: calls, ?_, ?_⟩
          · dsimp only
            rw [hc, hr]
            cases r <;> simp
          · dsimp only
            rw [hr]
            cases r <;> exact hi

theorem handOut_recorded (e : Engine σ) (flags : Flags) (s : σ) (log : List Call)
    (fs : List String) (pieces : List (List Char)) :
    ∃ calls, e.recorded.handOut flags (s, log) fs pieces =
        ((e.handOut flags s fs pieces).1, (e.handOut flags s fs pieces).2, calls.reverse ++ log) ∧
      HandsOut flags fs pieces calls (e.handOut flags s fs pieces).1 := by
  induction fs generalizing s log pieces with
  | nil => exact ⟨[], rfl, .done pieces⟩
  | cons f fs ih =>
      obtain ⟨calls, hc, hi⟩ := e.takeFirst_recorded (Fragment.synthesize f flags) s log pieces
      rw [handOut, handOut, hc]
      obtain ⟨r, s', hr⟩ :
          ∃ r s', e.takeFirst (Fragment.synthesize f flags) s pieces = (r, s') := ⟨_, _, rfl⟩
      rw [hr] at hi ⊢
      cases r with
      | error err => exact ⟨calls, rfl, .failed hi⟩
      | ok found =>
          obtain ⟨more, hm, ho⟩ := ih s' (calls.reverse ++ log) (found.getD pieces)
          refine ⟨calls ++ more, ?_, .next hi ho⟩
          dsimp only
          rw [hm, List.reverse_append, List.append_assoc]

def handOutCalls (e : Engine σ) (flags : Flags) (s : σ) (fs : List String)
    (pieces : List (List Char)) : List Call :=
  (e.recorded.handOut flags (s, []) fs pieces).2.2.reverse

theorem handsOut_handOutCalls (e : Engine σ) (flags : Flags) (s : σ) (fs : List String)
    (pieces : List (List Char)) :
    HandsOut flags fs pieces (e.handOutCalls flags s fs pieces) (e.handOut flags s fs pieces).1 := by
  obtain ⟨calls, hc, hh⟩ := e.handOut_recorded flags s [] fs pieces
  have hcalls : e.handOutCalls flags s fs pieces = calls := by simp [handOutCalls, hc]
  exact hcalls ▸ hh

end Engine

def Call.AnsweredBy (accepts : Pattern → String → Bool) (c : Call) : Prop :=
  c.answer = .ok (accepts c.pattern c.subject)

instance (accepts : Pattern → String → Bool) (c : Call) : Decidable (c.AnsweredBy accepts) :=
  match h : c.answer with
  | .ok accepted =>
      decidable_of_iff (accepted = accepts c.pattern c.subject)
        (by rw [Call.AnsweredBy, h, Except.ok.injEq])
  | .error _ => isFalse fun ha => nomatch h.symm.trans ha

def fits (accepts : Pattern → String → Bool) (flags : Flags) (f : String) (piece : List Char) :
    Bool :=
  accepts (Fragment.synthesize f flags) (.ofList piece)

theorem Inquiry.eq_of_answeredBy {accepts : Pattern → String → Bool} {pieces : List (List Char)}
    {calls : List Call} {r : Except PatternError (Option (List (List Char)))}
    (h : Inquiry p pieces calls r) (ha : ∀ c ∈ calls, c.AnsweredBy accepts) :
    ∃ found, r = .ok found ∧
      found.getD pieces = pieces.eraseP fun piece => accepts p (.ofList piece) := by
  have hrefused {before : List (List Char)}
      (hb : ∀ c ∈ before.map p.refusal, c.AnsweredBy accepts) :
      ∀ piece ∈ before, ¬accepts p (.ofList piece) = true := by
    intro piece hp
    have hc : Except.ok false = Except.ok (accepts p (.ofList piece)) :=
      hb _ (List.mem_map_of_mem hp)
    rw [← Except.ok.inj hc]
    exact Bool.false_ne_true
  cases h with
  | refused => exact ⟨none, rfl, (List.eraseP_of_forall_not (hrefused ha)).symm⟩
  | accepted before piece after =>
      have hbefore := hrefused fun c hc => ha c (List.mem_append_left _ hc)
      have hc : Except.ok true = Except.ok (accepts p (.ofList piece)) :=
        ha (p.acceptance piece) (by simp)
      refine ⟨some (before ++ after), rfl, ?_⟩
      rw [List.eraseP_append_right _ hbefore, List.eraseP_cons_of_pos]
      · rfl
      · exact (Except.ok.inj hc).symm
  | failed before piece after err =>
      have hc : Except.error err = Except.ok (accepts p (.ofList piece)) :=
        ha (p.breakdown piece err) (by simp)
      cases hc

theorem HandsOut.eq_leftOver {accepts : Pattern → String → Bool} {fs : List String}
    {pieces : List (List Char)} {calls : List Call} {r : Except PatternError (List (List Char))}
    (h : HandsOut flags fs pieces calls r) (ha : ∀ c ∈ calls, c.AnsweredBy accepts) :
    r = .ok (leftOver (fits accepts flags) fs pieces) := by
  induction h with
  | done => rfl
  | next first _ ih =>
      obtain ⟨_, hf, hrest⟩ := first.eq_of_answeredBy fun c hc => ha c (List.mem_append_left _ hc)
      cases hf
      rw [ih fun c hc => ha c (List.mem_append_right _ hc), hrest]
      rfl
  | failed first =>
      obtain ⟨_, hf, -⟩ := first.eq_of_answeredBy ha
      cases hf

theorem Engine.handOut_eq_leftOver {e : Engine σ} {accepts : Pattern → String → Bool} {s : σ}
    {fs : List String} {pieces : List (List Char)}
    (ha : ∀ c ∈ e.handOutCalls flags s fs pieces, c.AnsweredBy accepts) :
    (e.handOut flags s fs pieces).1 = .ok (leftOver (fits accepts flags) fs pieces) :=
  (e.handsOut_handOutCalls flags s fs pieces).eq_leftOver ha

namespace Specification

def answerPieces (b : Specification) (answer : String) : List (List Char) :=
  b.pieces (Answer.prepare b.flags.trimSpaces answer.toList)

def calls (b : Specification) (e : Engine σ) (s : σ) (answer : String) : List Call :=
  (b.score e.recorded (s, []) answer).2.2.reverse

theorem score_eq_map_handOut {b : Specification} (hd : b.isDegenerate = false)
    (ho : b.flags.anyOrder = true) (e : Engine σ) (s : σ) (answer : String) :
    (b.score e s answer).1 = (e.handOut b.flags s b.fragments (b.answerPieces answer)).1.map
      fun left => b.share (b.answerPieces answer).length left.length := by
  obtain ⟨r, s', hr⟩ :
      ∃ r s', e.handOut b.flags s b.fragments (b.answerPieces answer) = (r, s') := ⟨_, _, rfl⟩
  rw [hr]
  rw [answerPieces] at hr
  simp only [score, hd, ho, Bool.false_eq_true, if_false, if_true, hr]
  cases r <;> rfl

theorem handsOut_calls {b : Specification} (hd : b.isDegenerate = false)
    (ho : b.flags.anyOrder = true) (e : Engine σ) (s : σ) (answer : String) :
    ∃ r, HandsOut b.flags b.fragments (b.answerPieces answer) (b.calls e s answer) r ∧
      (b.score e s answer).1 =
        r.map fun wrong => b.share (b.answerPieces answer).length wrong.length := by
  obtain ⟨calls, hc, hh⟩ :=
    e.handOut_recorded b.flags s [] b.fragments (b.answerPieces answer)
  obtain ⟨r, s', hr⟩ :
      ∃ r s', e.handOut b.flags s b.fragments (b.answerPieces answer) = (r, s') := ⟨_, _, rfl⟩
  rw [hr] at hc hh
  refine ⟨r, ?_, ?_⟩
  · suffices hcalls : b.calls e s answer = calls from hcalls ▸ hh
    rw [answerPieces] at hc
    simp only [Specification.calls, score, hd, ho, Bool.false_eq_true, if_false, if_true, hc]
    cases r <;> simp
  · rw [score_eq_map_handOut hd ho, hr]

theorem score_of_handOut {b : Specification} (ho : b.flags.anyOrder = true) {e : Engine σ} {s : σ}
    {answer : String} {left : List (List Char)}
    (h : (e.handOut b.flags s b.fragments (b.answerPieces answer)).1 = .ok left) :
    (b.score e s answer).1 =
      .ok (if b.isDegenerate then 0.0 else b.share (b.answerPieces answer).length left.length) := by
  cases hd : b.isDegenerate with
  | true => rw [score_of_isDegenerate hd, if_pos rfl]
  | false =>
      rw [score_eq_map_handOut hd ho, h]
      rfl

end Specification

end AnswerGrading
