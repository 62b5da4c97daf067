import AnswerGrading.Proofs.BrokenFragments

namespace AnswerGrading

variable {σ α β : Type} {e : Engine σ} {s : σ} {b : Specification} {answer : String}
  {calls more : List Call} {flags : Flags} {fs : List String} {pieces : List (List Char)}

/-- Every call was answered, or the last one alone was not and the result is its error. -/
inductive StopsAtFailure : List Call → Except PatternError α → Prop where
  | answered {calls : List Call} {a : α} (h : ∀ c ∈ calls, c.Answered) :
      StopsAtFailure calls (.ok a)
  | failed {calls : List Call} {c : Call} {err : PatternError} (h : ∀ c ∈ calls, c.Answered)
      (hc : c.answer = .error err) : StopsAtFailure (calls ++ [c]) (.error err)

namespace StopsAtFailure

variable {r : Except PatternError α}

theorem answered_of_ok {a : α} (h : StopsAtFailure calls (.ok a : Except PatternError α)) :
    ∀ c ∈ calls, c.Answered := by
  cases h with
  | answered h => exact h

theorem append (hc : ∀ c ∈ calls, c.Answered) (h : StopsAtFailure more r) :
    StopsAtFailure (calls ++ more) r := by
  cases h with
  | answered hm => exact .answered (List.forall_mem_append.2 ⟨hc, hm⟩)
  | failed hm herr =>
      rw [← List.append_assoc]
      exact .failed (List.forall_mem_append.2 ⟨hc, hm⟩) herr

theorem map (h : StopsAtFailure calls r) (f : α → β) : StopsAtFailure calls (r.map f) := by
  cases h with
  | answered h => exact .answered h
  | failed h hc => exact .failed h hc

theorem single (p : Pattern) (subject : String) (result : Except PatternError Bool) :
    StopsAtFailure [⟨p, subject, result⟩] result := by
  have hnone : ∀ c ∈ ([] : List Call), c.Answered := fun c hc => nomatch hc
  cases result with
  | error err => exact .failed hnone rfl
  | ok matched =>
      refine .answered fun c hc => ?_
      rw [List.mem_singleton.1 hc]
      exact ⟨matched, rfl⟩

theorem exists_error (h : StopsAtFailure calls r) (hne : calls ≠ [])
    (hc : ∀ c ∈ calls, ¬c.Answered) : ∃ err, r = .error err := by
  cases h with
  | answered h =>
      obtain ⟨c, rest, rfl⟩ := List.exists_cons_of_ne_nil hne
      exact absurd (h c (List.mem_cons_self ..)) (hc c (List.mem_cons_self ..))
  | failed => exact ⟨_, rfl⟩

end StopsAtFailure

theorem Inquiry.stops {p : Pattern} {r : Except PatternError (Option (List (List Char)))}
    (h : Inquiry p pieces calls r) : StopsAtFailure calls r := by
  have hrefused (before : List (List Char)) : ∀ c ∈ before.map p.refusal, c.Answered := by
    intro c hc
    obtain ⟨piece, -, rfl⟩ := List.mem_map.1 hc
    exact ⟨false, rfl⟩
  cases h with
  | refused => exact .answered (hrefused _)
  | accepted before piece after =>
      have hlast := StopsAtFailure.single p (.ofList piece) (.ok true)
      exact .append (hrefused before) (hlast.map fun _ => some (before ++ after))
  | failed before piece after err => exact .failed (hrefused before) rfl

theorem Inquiry.ne_nil {p : Pattern} {r : Except PatternError (Option (List (List Char)))}
    (h : Inquiry p pieces calls r) (hp : pieces ≠ []) : calls ≠ [] := by
  cases h with
  | refused => exact fun hn => hp (List.map_eq_nil_iff.1 hn)
  | accepted => exact List.append_ne_nil_of_right_ne_nil _ (List.cons_ne_nil _ _)
  | failed => exact List.append_ne_nil_of_right_ne_nil _ (List.cons_ne_nil _ _)

theorem HandsOut.stops {r : Except PatternError (List (List Char))}
    (h : HandsOut flags fs pieces calls r) : StopsAtFailure calls r := by
  induction h with
  | done => exact .answered fun c hc => nomatch hc
  | next first _ ih => exact ih.append first.stops.answered_of_ok
  | failed first =>
      cases first.stops with
      | failed h hc => exact .failed h hc

theorem HandsOut.ne_nil {f : String} {r : Except PatternError (List (List Char))}
    (h : HandsOut flags (f :: fs) pieces calls r) (hp : pieces ≠ []) : calls ≠ [] := by
  cases h with
  | next first => exact List.append_ne_nil_of_left_ne_nil (first.ne_nil hp) _
  | failed first => exact first.ne_nil hp

def Call.MadeTo (e : Engine σ) (c : Call) : Prop :=
  ∃ s, c.answer = (e.ask s c.pattern c.subject).1

namespace Engine

theorem recorded_simulates (e : Engine σ) :
    Simulates (fun t s => t.1 = s) e.recorded e := by
  rintro ⟨s, log⟩ _ rfl p subject
  exact ⟨(e.ask s p subject).1, _, (e.ask s p subject).2, rfl, rfl, rfl⟩

theorem recorded_keeps (e : Engine σ) :
    Simulates (fun t u => t = u ∧ ∀ c ∈ t.2, c.MadeTo e) e.recorded e.recorded := by
  rintro ⟨s, log⟩ _ ⟨rfl, hlog⟩ p subject
  refine ⟨(e.ask s p subject).1, _, _, rfl, rfl, rfl, ?_⟩
  exact List.forall_mem_cons.2 ⟨⟨s, rfl⟩, hlog⟩

end Engine

namespace Specification

def wholeCall (b : Specification) (answer : String) (matched : Except PatternError Bool) : Call :=
  ⟨Fragment.synthesize b.first b.flags,
    .ofList (Answer.prepare b.flags.trimSpaces answer.toList), matched⟩

/-- What a scoring asks and what it results in: nothing, the whole answer in one call, or the pieces
one fragment after the other. -/
inductive Trace (b : Specification) (answer : String) :
    List Call → Except PatternError Float → Prop where
  | silent (hd : b.isDegenerate = true) : Trace b answer [] (.ok 0.0)
  | whole (hd : b.isDegenerate = false) (ho : b.flags.anyOrder = false)
      (matched : Except PatternError Bool) :
      Trace b answer [b.wholeCall answer matched] (matched.map fun m => if m then 1.0 else 0.0)
  | pieces (hd : b.isDegenerate = false) (ho : b.flags.anyOrder = true) {calls : List Call}
      {r : Except PatternError (List (List Char))}
      (h : HandsOut b.flags b.fragments (b.answerPieces answer) calls r) :
      Trace b answer calls
        (r.map fun left => b.share (b.answerPieces answer).length left.length)

theorem Trace.stops {result : Except PatternError Float} (h : b.Trace answer calls result) :
    StopsAtFailure calls result := by
  cases h with
  | silent => exact .answered fun c hc => nomatch hc
  | whole hd ho matched => exact (StopsAtFailure.single _ _ matched).map _
  | pieces hd ho h => exact h.stops.map _

theorem Trace.ne_nil {result : Except PatternError Float} (h : b.Trace answer calls result)
    (hd : b.isDegenerate = false) : calls ≠ [] := by
  cases h with
  | silent hd' =>
      rw [hd] at hd'
      cases hd'
  | whole => exact List.cons_ne_nil _ _
  | pieces _ _ h => exact h.ne_nil (b.answerPieces_ne_nil answer)

theorem score_of_single (hd : b.isDegenerate = false) (ho : b.flags.anyOrder = false)
    (e : Engine σ) (s : σ) (answer : String) :
    b.score e s answer =
      let asked := e.ask s (Fragment.synthesize b.first b.flags)
        (.ofList (Answer.prepare b.flags.trimSpaces answer.toList))
      (asked.1.map fun matched => if matched then 1.0 else 0.0, asked.2) := by
  simp only [score, hd, ho, Bool.false_eq_true, if_false]
  split
  · rename_i h
    rw [h]
    rfl
  · rename_i h
    rw [h]
    rfl

theorem trace_calls (b : Specification) (e : Engine σ) (s : σ) (answer : String) :
    b.Trace answer (b.calls e s answer) (b.score e s answer).1 := by
  cases hd : b.isDegenerate with
  | true =>
      rw [calls, score_of_isDegenerate hd, score_of_isDegenerate hd]
      exact .silent hd
  | false =>
      cases ho : b.flags.anyOrder with
      | true =>
          obtain ⟨r, hh, hr⟩ := handsOut_calls hd ho e s answer
          rw [hr]
          exact .pieces hd ho hh
      | false =>
          rw [calls, score_of_single hd ho, score_of_single hd ho]
          exact .whole hd ho (e.ask s _ _).1

theorem score_recorded (b : Specification) (e : Engine σ) (s : σ) (answer : String) :
    b.score e.recorded (s, []) answer =
      ((b.score e s answer).1, (b.score e s answer).2, (b.calls e s answer).reverse) := by
  have hstart : (s, ([] : List Call)).1 = s := rfl
  obtain ⟨result, t, s', hr, hr', rfl⟩ := Simulates.score e.recorded_simulates hstart b answer
  rw [calls, hr, hr', List.reverse_reverse]

theorem madeTo_of_mem_calls {c : Call} (hc : c ∈ b.calls e s answer) : c.MadeTo e := by
  have hstart : ∀ c ∈ (s, ([] : List Call)).2, c.MadeTo e := fun c hc => nomatch hc
  have hend := (Simulates.score e.recorded_keeps ⟨rfl, hstart⟩ b answer).snd.2
  exact hend c (List.mem_reverse.1 hc)

end Specification

def Engine.Fails (e : Engine σ) : Prop :=
  ∀ s p subject, ∃ err, (e.ask s p subject).1 = .error err

theorem Engine.fails_refusing : Engine.refusing.Fails :=
  fun _ _ _ => ⟨_, rfl⟩

namespace Engine.Fails

theorem score (h : e.Fails) (hd : b.isDegenerate = false) (s : σ) (answer : String) :
    ∃ err, (b.score e s answer).1 = .error err := by
  have htrace := b.trace_calls e s answer
  refine htrace.stops.exists_error (htrace.ne_nil hd) ?_
  rintro c hc ⟨matched, hm⟩
  obtain ⟨t, ht⟩ := Specification.madeTo_of_mem_calls hc
  obtain ⟨err, herr⟩ := h t c.pattern c.subject
  rw [ht, herr] at hm
  cases hm

theorem silent (h : e.Fails) (b : Specification) (s : σ) (answer : String) :
    Silent (b.score e s answer).1 := by
  cases hd : b.isDegenerate with
  | true => exact silent_of_isDegenerate hd e s answer
  | false =>
      obtain ⟨err, herr⟩ := h.score hd s answer
      rw [herr]
      exact silent_error err

theorem silent_of_mem (h : e.Fails) {rs : List Rule} {x : Scored}
    (hx : x ∈ e.scoreAll answer s rs) : Silent x.raw := by
  obtain ⟨-, t, ht⟩ := Engine.exists_scored_of_mem hx
  rw [ht]
  exact h.silent x.rule.body t answer

theorem outcome (h : e.Fails) {rs : List Rule} {x : Scored} (hx : x ∈ e.scoreAll answer s rs) :
    (x.rule.body.isDegenerate = true → x.outcome = .noMatch) ∧
    (x.rule.body.isDegenerate = false → ∃ err, x.outcome = .unprocessable err) := by
  obtain ⟨-, t, ht⟩ := Engine.exists_scored_of_mem hx
  rw [ht, Engine.scored]
  constructor
  · intro hd
    rw [Specification.score_of_isDegenerate hd]
    exact Scored.outcome_of_not_lt silent_zero.not_lt
  · intro hd
    obtain ⟨err, herr⟩ := h.score hd t answer
    rw [herr]
    exact ⟨err, rfl⟩

end Engine.Fails

theorem foldl_none_of_silent {f : Best → Scored → Best} {xs : List Scored}
    (hf : ∀ x, Silent x.raw → ∀ best, f best x = best) (h : ∀ x ∈ xs, Silent x.raw) :
    xs.foldl f none = none :=
  List.foldlRecOn (motive := (· = none)) xs f rfl
    fun best hb x hx => (hf x (h x hx) best).trans hb

/-- The calls of a scoring are those that its fragments and pieces prescribe, each answered by the
engine, up to the first that fails; the result is that failure or there is none. An engine that
always fails leaves every rule with fragments unprocessable and no rule selected. -/
theorem score_traced (e : Engine σ) (answer : String) :
    (∀ (b : Specification) (s : σ),
      let calls := b.calls e s answer
      let result := (b.score e s answer).1
      b.score e.recorded (s, []) answer = (result, (b.score e s answer).2, calls.reverse) ∧
      (∀ c ∈ calls, c.MadeTo e) ∧ b.Trace answer calls result ∧ StopsAtFailure calls result ∧
      (b.isDegenerate = false → calls ≠ [])) ∧
    (e.Fails → ∀ (s : σ) (rs : List Rule),
      let report := (gradeDetailed e s rs answer).1
      (grade e s rs answer).1 = .none ∧ report.score = .none ∧
      List.Forall₂ (fun r entry => entry.1 = r.id ∧
          (r.body.isDegenerate = true → entry.2 = .noMatch) ∧
          (r.body.isDegenerate = false → ∃ err, entry.2 = .unprocessable err))
        rs report.outcomes) := by
  constructor
  · intro b s calls result
    have htrace := b.trace_calls e s answer
    exact ⟨b.score_recorded e s answer, fun c hc => Specification.madeTo_of_mem_calls hc, htrace,
      htrace.stops, htrace.ne_nil⟩
  · intro h s rs report
    have hsilent : ∀ x ∈ e.scoreAll answer s rs, Silent x.raw := fun x hx => h.silent_of_mem hx
    have hreport : report = _ := gradeDetailed_eq e s rs answer
    refine ⟨?_, ?_, ?_⟩
    · rw [grade_fst_eq, foldl_none_of_silent (fun x => Best.take_of_silent) hsilent]
      rfl
    · rw [hreport, foldl_none_of_silent (fun x => Best.offer_of_silent) hsilent]
      rfl
    · rw [hreport]
      conv_lhs => rw [← e.map_rule_scoreAll answer s rs]
      rw [List.forall₂_map_left_iff, List.forall₂_map_right_iff, List.forall₂_same]
      exact fun x hx => ⟨rfl, h.outcome hx⟩

theorem score_traced_refusing :
    let b := Specification.lateBroken.body
    let calls := b.calls Engine.regex {} "b\na"
    let result := (b.score Engine.regex {} "b\na").1
    calls.map Call.subject = ["b", "a", "b"] ∧ StopsAtFailure calls result ∧
    result.isOk = false ∧ b.isDegenerate = false ∧ calls ≠ [] ∧ Engine.refusing.Fails ∧
    (grade Engine.refusing () [partRule, emptyRule, tiedRule] "a").1 = .none ∧
    ∃ err err', (gradeDetailed Engine.refusing () [partRule, emptyRule, tiedRule] "a").1.outcomes =
      [("half", .unprocessable err), ("empty", .noMatch), ("tied", .unprocessable err')] := by
  intro b calls result
  have hd : b.isDegenerate = false := by decide +kernel
  have hpart : partRule.body.isDegenerate = false := by decide +kernel
  have hempty : emptyRule.body.isDegenerate = true := by decide +kernel
  have htied : tiedRule.body.isDegenerate = false := by decide +kernel
  obtain ⟨heach, -⟩ := score_traced Engine.regex "b\na"
  obtain ⟨-, -, -, hstops, hcalls⟩ := heach b {}
  obtain ⟨-, hfails⟩ := score_traced Engine.refusing "a"
  obtain ⟨hnone, -, houtcomes⟩ :=
    hfails Engine.fails_refusing () [partRule, emptyRule, tiedRule]
  refine ⟨by decide +kernel, hstops, by decide +kernel, hd, hcalls hd, Engine.fails_refusing, hnone,
    ?_⟩
  generalize (gradeDetailed Engine.refusing () [partRule, emptyRule, tiedRule] "a").1.outcomes =
    outcomes at houtcomes ⊢
  rcases houtcomes with _ | ⟨hfirst, _ | ⟨hsecond, _ | ⟨hthird, _ | _⟩⟩⟩
  obtain ⟨err, herr⟩ := hfirst.2.2 hpart
  obtain ⟨err', herr'⟩ := hthird.2.2 htied
  refine ⟨err, err', ?_⟩
  simp only [List.cons.injEq, Prod.ext_iff, and_true]
  exact ⟨⟨hfirst.1, herr⟩, ⟨hsecond.1, hsecond.2.1 hempty⟩, hthird.1, herr'⟩

end AnswerGrading
