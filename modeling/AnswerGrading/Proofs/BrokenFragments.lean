import AnswerGrading.Proofs.ConsistentScoring
import AnswerGrading.Proofs.SilentRules

namespace AnswerGrading

open FloatBits

variable {σ : Type} {e : Engine σ} {known : σ → Prop}
  {answers : Pattern → String → Except PatternError Bool} {s : σ} {flags : Flags}

/-- The pattern gives no answer, whatever the subject. -/
def Refuses (answers : Pattern → String → Except PatternError Bool) (p : Pattern) : Prop :=
  ∀ subject, ∃ err, answers p subject = .error err

theorem refuses_of_compile {p : Pattern} {d : Regex.Defect} (h : p.compile = .error d) :
    Refuses Pattern.matches p := by
  intro subject
  exact ⟨p.defective d, by rw [Pattern.matches, h]⟩

theorem Specification.answerPieces_ne_nil (b : Specification) (answer : String) :
    b.answerPieces answer ≠ [] :=
  Text.splitAt_ne_nil _ _

namespace Engine

theorem handOut_nil (e : Engine σ) (flags : Flags) (s : σ) (fs : List String) :
    e.handOut flags s fs [] = (.ok [], s) := by
  induction fs with
  | nil => rfl
  | cons f fs ih => exact ih

theorem handOut_append (e : Engine σ) (flags : Flags) (s : σ) (fs gs : List String)
    (pieces : List (List Char)) :
    e.handOut flags s (fs ++ gs) pieces =
      match e.handOut flags s fs pieces with
      | (.error err, s) => (.error err, s)
      | (.ok rest, s) => e.handOut flags s gs rest := by
  induction fs generalizing s pieces with
  | nil => rfl
  | cons f fs ih =>
      rw [List.cons_append, handOut, handOut]
      obtain ⟨found, s', hf⟩ :
          ∃ found s', e.takeFirst (Fragment.synthesize f flags) s pieces = (found, s') := ⟨_, _, rfl⟩
      rw [hf]
      cases found with
      | error err => rfl
      | ok rest => exact ih s' (rest.getD pieces)

theorem handOut_of_usedUp {before : List String} {pieces : List (List Char)}
    (hb : (e.handOut flags s before pieces).1 = .ok []) (fs : List String) :
    (e.handOut flags s (before ++ fs) pieces).1 = .ok [] := by
  obtain ⟨r, s', hr⟩ : ∃ r s', e.handOut flags s before pieces = (r, s') := ⟨_, _, rfl⟩
  rw [hr] at hb
  cases hb
  rw [handOut_append, hr]
  exact congrArg Prod.fst (e.handOut_nil flags s' fs)

end Engine

theorem Inquiry.length_le {p : Pattern} {pieces : List (List Char)} {calls : List Call}
    {found : Option (List (List Char))} (h : Inquiry p pieces calls (.ok found)) :
    pieces.length ≤ (found.getD pieces).length + 1 := by
  cases h with
  | refused => exact Nat.le_succ _
  | accepted before piece after => simp; omega

theorem HandsOut.length_le {fs : List String} {pieces left : List (List Char)} {calls : List Call}
    {r : Except PatternError (List (List Char))} (h : HandsOut flags fs pieces calls r)
    (hr : r = .ok left) : pieces.length ≤ left.length + fs.length := by
  induction h with
  | done pieces =>
      cases hr
      exact Nat.le_refl _
  | next first rest ih =>
      have hfirst := first.length_le
      have hrest := ih hr
      rw [List.length_cons]
      omega
  | failed => cases hr

namespace Engine.Consistent

theorem takeFirst_of_refuses (h : e.Consistent known answers) (hs : known s) {p : Pattern}
    (hp : Refuses answers p) {pieces : List (List Char)} (hne : pieces ≠ []) :
    ∃ err, (e.takeFirst p s pieces).1 = .error err := by
  cases pieces with
  | nil => exact absurd rfl hne
  | cons piece pieces =>
      obtain ⟨err, herr⟩ := hp (.ofList piece)
      rw [← h.answer hs] at herr
      refine ⟨err, ?_⟩
      obtain ⟨answer, s', ha⟩ : ∃ answer s', e.ask s p (.ofList piece) = (answer, s') := ⟨_, _, rfl⟩
      rw [ha] at herr
      cases herr
      rw [takeFirst, ha]

variable {before : List String} {f : String} {pieces : List (List Char)}

theorem handOut_of_refuses (h : e.Consistent known answers) (hs : known s)
    (hf : Refuses answers (Fragment.synthesize f flags))
    (hb : (e.handOut flags s before pieces).1 ≠ .ok []) (after : List String) :
    ∃ err, (e.handOut flags s (before ++ f :: after) pieces).1 = .error err := by
  have hknown := h.known_handOut hs flags before pieces
  rw [handOut_append]
  obtain ⟨r, s', hr⟩ : ∃ r s', e.handOut flags s before pieces = (r, s') := ⟨_, _, rfl⟩
  rw [hr] at hb hknown ⊢
  cases r with
  | error err => exact ⟨err, rfl⟩
  | ok left =>
      have hne : left ≠ [] := fun hn => hb (congrArg Except.ok hn)
      obtain ⟨err, herr⟩ := h.takeFirst_of_refuses hknown hf hne
      refine ⟨err, ?_⟩
      obtain ⟨found, s'', ht⟩ :
          ∃ found s'', e.takeFirst (Fragment.synthesize f flags) s' left = (found, s'') :=
        ⟨_, _, rfl⟩
      rw [ht] at herr
      cases herr
      simp only [handOut, ht]

end Engine.Consistent

theorem anyOrderPoints_nothingLeft {fragments pieces : Nat} (h : pieces ≤ fragments) :
    anyOrderPoints fragments pieces 0 = pieces := by
  unfold anyOrderPoints
  dsimp only
  omega

namespace Specification

variable {b : Specification} {before after : List String} {f : String}

theorem share_nothingLeft {pieces : Nat} (h : pieces ≤ b.fragments.length) :
    b.share pieces 0 = Float.ofNat pieces / Float.ofNat b.fragments.length := by
  rw [share, Nat.cast_zero, anyOrderPoints_nothingLeft h]
  rfl

/-- The fragments take all pieces of the answer and leave none for those that follow. -/
def UsesUp (b : Specification) (e : Engine σ) (s : σ) (before : List String) (answer : String) :
    Prop :=
  (e.handOut b.flags s before (b.answerPieces answer)).1 = .ok []

theorem UsesUp.length_le {answer : String} (h : b.UsesUp e s before answer) :
    (b.answerPieces answer).length ≤ before.length := by
  have hhanded := e.handsOut_handOutCalls b.flags s before (b.answerPieces answer)
  have hle := hhanded.length_le h
  rwa [List.length_nil, Nat.zero_add] at hle

theorem score_of_usesUp (hd : b.isDegenerate = false) (ho : b.flags.anyOrder = true)
    (hb : b.fragments = before ++ f :: after) {answer : String}
    (h : b.UsesUp e s before answer) :
    (b.score e s answer).1 =
      .ok (Float.ofNat (b.answerPieces answer).length / Float.ofNat b.fragments.length) := by
  have hle := h.length_le
  have hleft := Engine.handOut_of_usedUp h (f :: after)
  rw [← hb] at hleft
  have hlength : (b.answerPieces answer).length ≤ b.fragments.length := by
    rw [hb, List.length_append]
    omega
  rw [score_eq_map_handOut hd ho, hleft, Except.map, List.length_nil, share_nothingLeft hlength]

theorem score_of_refuses (h : e.Consistent known answers) (hs : known s)
    (hd : b.isDegenerate = false) (ho : b.flags.anyOrder = true)
    (hb : b.fragments = before ++ f :: after)
    (hf : Refuses answers (Fragment.synthesize f b.flags)) {answer : String}
    (hne : ¬b.UsesUp e s before answer) : ∃ err, (b.score e s answer).1 = .error err := by
  obtain ⟨err, herr⟩ := h.handOut_of_refuses hs hf hne after
  rw [← hb] at herr
  exact ⟨err, by rw [score_eq_map_handOut hd ho, herr, Except.map]⟩

end Specification

theorem Rule.Addressable.positive_count {r : Rule} (h : r.Addressable) {count : Nat}
    (hc : 0 < count) (hle : count ≤ r.body.fragments.length) :
    Positive (Float.ofNat count / Float.ofNat r.body.fragments.length) := by
  have hlength := Specification.length_fragments_parse_le r.spec
  rw [← r.body_eq] at hlength
  rw [Addressable] at h
  have hlog : count.log2 < 64 := (Nat.log2_lt hc.ne').2 (by omega)
  have hlog' : r.body.fragments.length.log2 < 64 := (Nat.log2_lt (by omega)).2 (by omega)
  exact positive_ofNat_div hc (by omega) hlog hlog'

theorem Engine.Consistent.outcomes_getElem? (h : e.Consistent known answers) {u : σ} (hs : known s)
    (hu : known u) (front : List Rule) (r : Rule) (back : List Rule) (answer : String) :
    (gradeDetailed e s (front ++ r :: back) answer).1.outcomes[front.length]? =
      some (e.scored u answer r).entry := by
  rw [h.gradeDetailed_fst hs hu, List.map_append, List.map_append, List.map_cons, List.map_cons,
    List.getElem?_append_right (by simp)]
  simp

namespace Specification

/-- With a fragment that the engine refuses, an any-order score fails exactly when the fragments
before it leave a piece of the answer. The rule then gives nothing and is reported as one that could
not be processed. Otherwise the fragment is never tried, and the rule scores and matches. -/
theorem score_error_iff_of_refuses (h : e.Consistent known answers) (hs : known s)
    {b : Specification} (hd : b.isDegenerate = false) (ho : b.flags.anyOrder = true)
    {before after : List String} {f : String} (hb : b.fragments = before ++ f :: after)
    (hf : Refuses answers (Fragment.synthesize f b.flags)) (answer : String) :
    let count := (b.answerPieces answer).length
    let raw := Float.ofNat count / Float.ofNat b.fragments.length
    ((∃ err, (b.score e s answer).1 = .error err) ↔ ¬b.UsesUp e s before answer) ∧
    (before.length < count → ¬b.UsesUp e s before answer) ∧
    (b.UsesUp e s before answer →
      0 < count ∧ count ≤ before.length ∧ (b.score e s answer).1 = .ok raw) ∧
    ∀ r : Rule, r.body = b → r.Addressable → ∀ front back,
      let outcome? := (gradeDetailed e s (front ++ r :: back) answer).1.outcomes[front.length]?
      (¬b.UsesUp e s before answer →
        (∃ err, outcome? = some (r.id, .unprocessable err)) ∧
        (grade e s (front ++ r :: back) answer).1 = (grade e s (front ++ back) answer).1) ∧
      (b.UsesUp e s before answer →
        outcome? = some (r.id, .matched raw (raw * r.fraction))) := by
  intro count raw
  have hbefore : before.length ≤ b.fragments.length := by
    rw [hb, List.length_append]
    exact Nat.le_add_right _ _
  have hcount : 0 < count := List.length_pos_iff.2 (b.answerPieces_ne_nil answer)
  have hok (hused : b.UsesUp e s before answer) : (b.score e s answer).1 = .ok raw :=
    score_of_usesUp hd ho hb hused
  refine ⟨⟨?_, score_of_refuses h hs hd ho hb hf⟩, ?_, ?_, ?_⟩
  · rintro ⟨err, herr⟩ hused
    rw [hok hused] at herr
    cases herr
  · intro hlt hused
    exact absurd hused.length_le (Nat.not_le.2 hlt)
  · exact fun hused => ⟨hcount, hused.length_le, hok hused⟩
  · rintro r rfl hr front back
    dsimp only
    rw [h.outcomes_getElem? hs hs]
    constructor
    · intro hleft
      obtain ⟨err, herr⟩ := score_of_refuses h hs hd ho hb hf hleft
      have hsilent : Silent (r.body.score e s answer).1 := by
        rw [herr]
        exact silent_error err
      refine ⟨⟨err, ?_⟩, h.grade_fst_of_silent hs hs hs hsilent front back⟩
      rw [Scored.entry, Engine.scored, herr]
      rfl
    · intro hused
      have hpos : Positive raw := hr.positive_count hcount (hused.length_le.trans hbefore)
      rw [Scored.entry, Engine.scored, hok hused, Scored.outcome_of_lt hpos.zero_lt]

def lateBroken : Rule :=
  .ofStored { id := "late", spec := "[[a]] [[(]]/O/", fraction := 1 }

theorem compile_lateBroken :
    (Fragment.synthesize "(" lateBroken.body.flags).compile = .error .unclosedGroup := by
  rfl

theorem usesUp_lateBroken : lateBroken.body.UsesUp Engine.regex {} ["a"] "a" := by
  unfold UsesUp
  decide +kernel

theorem not_usesUp_lateBroken : ¬lateBroken.body.UsesUp Engine.regex {} ["a"] "b" := by
  unfold UsesUp
  decide +kernel

theorem score_error_iff_of_refuses_lateBroken :
    lateBroken.body.isDegenerate = false ∧ lateBroken.body.flags.anyOrder = true ∧
    Refuses Pattern.matches (Fragment.synthesize "(" lateBroken.body.flags) ∧
    lateBroken.Addressable ∧
    ((lateBroken.body.score Engine.regex {} "a").1 = .ok (Float.ofNat 1 / Float.ofNat 2) ∧
      ∃ raw weighted, (gradeDetailed Engine.regex {} [tiedRule, lateBroken] "a").1.outcomes[1]? =
        some ("late", .matched raw weighted)) ∧
    (∃ err, (lateBroken.body.score Engine.regex {} "b").1 = .error err) ∧
    (∃ err, (gradeDetailed Engine.regex {} [tiedRule, lateBroken] "b").1.outcomes[1]? =
      some ("late", .unprocessable err)) ∧
    (grade Engine.regex {} [tiedRule, lateBroken] "b").1 =
      (grade Engine.regex {} [tiedRule] "b").1 := by
  have hd : lateBroken.body.isDegenerate = false := by decide +kernel
  have ho : lateBroken.body.flags.anyOrder = true := by decide +kernel
  have hb : lateBroken.body.fragments = ["a"] ++ "(" :: [] := by decide +kernel
  have hf := refuses_of_compile compile_lateBroken
  have ha : lateBroken.Addressable := by
    unfold Rule.Addressable
    decide +kernel
  obtain ⟨-, -, hscore, hreport⟩ := score_error_iff_of_refuses Engine.consistent_regex
    Cache.faithful_empty hd ho hb hf "a"
  obtain ⟨herror, -, -, hreport'⟩ := score_error_iff_of_refuses Engine.consistent_regex
    Cache.faithful_empty hd ho hb hf "b"
  have hcount : (lateBroken.body.answerPieces "a").length = 1 := by decide +kernel
  have hok := (hscore usesUp_lateBroken).2.2
  rw [hcount, hb] at hok
  have hmatched := (hreport lateBroken rfl ha [tiedRule] []).2 usesUp_lateBroken
  have hfailed := (hreport' lateBroken rfl ha [tiedRule] []).1 not_usesUp_lateBroken
  exact ⟨hd, ho, hf, ha, ⟨hok, _, _, hmatched⟩, herror.2 not_usesUp_lateBroken, hfailed⟩

/-- The first fragment takes the one piece there is, so that nothing tells of the second. -/
theorem score_lateBroken :
    lateBroken.body.isDegenerate = false ∧ lateBroken.body.flags.anyOrder = true ∧
    "(" ∈ lateBroken.body.fragments ∧
    Refuses Pattern.matches (Fragment.synthesize "(" lateBroken.body.flags) ∧
    (lateBroken.body.score Engine.regex {} "a").1 = .ok 0.5 ∧
    (grade Engine.regex {} [lateBroken] "a").1.rule = some "late" ∧
    (gradeDetailed Engine.regex {} [lateBroken] "a").1.matched = ["late"] ∧
    (gradeDetailed Engine.regex {} [lateBroken] "a").1.hasUnprocessable = false := by
  refine ⟨?_, ?_, ?_, refuses_of_compile compile_lateBroken, ?_, ?_, ?_, ?_⟩
  all_goals decide +kernel

end Specification

end AnswerGrading
