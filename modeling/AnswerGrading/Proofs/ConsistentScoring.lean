import AnswerGrading.Proofs.DetailedGrading
import AnswerGrading.Proofs.LargestAssignment

namespace AnswerGrading

variable {σ : Type} {e : Engine σ} {known : σ → Prop}
  {answers : Pattern → String → Except PatternError Bool} {s : σ} {flags : Flags}
  {fs : List String} {pieces : List (List Char)} {calls : List Call}

theorem Inquiry.pattern_eq {p : Pattern} {r : Except PatternError (Option (List (List Char)))}
    (h : Inquiry p pieces calls r) {c : Call} (hc : c ∈ calls) : c.pattern = p := by
  have hrefused {before : List (List Char)} (hm : c ∈ before.map p.refusal) : c.pattern = p := by
    obtain ⟨piece, -, rfl⟩ := List.mem_map.1 hm
    rfl
  cases h with
  | refused => exact hrefused hc
  | accepted before piece after =>
      rcases List.mem_append.1 hc with hc | hc
      · exact hrefused hc
      · rw [List.mem_singleton.1 hc]
        rfl
  | failed before piece after err =>
      rcases List.mem_append.1 hc with hc | hc
      · exact hrefused hc
      · rw [List.mem_singleton.1 hc]
        rfl

theorem HandsOut.exists_fragment {r : Except PatternError (List (List Char))}
    (h : HandsOut flags fs pieces calls r) {c : Call} (hc : c ∈ calls) :
    ∃ f ∈ fs, c.pattern = Fragment.synthesize f flags := by
  induction h with
  | done => cases hc
  | next first _ ih =>
      rcases List.mem_append.1 hc with hc | hc
      · exact ⟨_, List.mem_cons_self .., first.pattern_eq hc⟩
      · obtain ⟨f, hf, hp⟩ := ih hc
        exact ⟨f, List.mem_cons_of_mem _ hf, hp⟩
  | failed first => exact ⟨_, List.mem_cons_self .., first.pattern_eq hc⟩

namespace Engine.Consistent

theorem recorded (h : e.Consistent known answers) :
    e.recorded.Consistent
      (fun t => known t.1 ∧ ∀ c ∈ t.2, c.answer = answers c.pattern c.subject) answers where
  answer ht p subject := h.answer ht.1 p subject
  stays := by
    intro t ht p subject
    refine ⟨h.stays ht.1 p subject, ?_⟩
    intro c hc
    rcases List.mem_cons.1 hc with rfl | hc
    · exact h.answer ht.1 p subject
    · exact ht.2 c hc

theorem known_handOut (h : e.Consistent known answers) (hs : known s) (flags : Flags)
    (fs : List String) (pieces : List (List Char)) : known (e.handOut flags s fs pieces).2 :=
  (Simulates.handOut h.simulates ⟨hs, hs⟩ flags fs pieces).snd.1

theorem answer_of_mem_handOutCalls (h : e.Consistent known answers) (hs : known s) {c : Call}
    (hc : c ∈ e.handOutCalls flags s fs pieces) : c.answer = answers c.pattern c.subject := by
  have hstart : known s ∧ ∀ c ∈ ([] : List Call), c.answer = answers c.pattern c.subject :=
    ⟨hs, fun c hc => nomatch hc⟩
  have hend := h.recorded.known_handOut (s := (s, [])) hstart flags fs pieces
  exact hend.2 c (List.mem_reverse.1 hc)

theorem handOut_eq_leftOver (h : e.Consistent known answers) (hs : known s)
    {accepts : Pattern → String → Bool}
    (hfs : ∀ f ∈ fs, ∀ subject, answers (Fragment.synthesize f flags) subject =
      .ok (accepts (Fragment.synthesize f flags) subject)) :
    (e.handOut flags s fs pieces).1 = .ok (leftOver (fits accepts flags) fs pieces) := by
  apply Engine.handOut_eq_leftOver
  intro c hc
  obtain ⟨f, hf, hp⟩ := (e.handsOut_handOutCalls flags s fs pieces).exists_fragment hc
  rw [Call.AnsweredBy, h.answer_of_mem_handOutCalls hs hc, hp]
  exact hfs f hf c.subject

end Engine.Consistent

end AnswerGrading
