import AnswerGrading.Engine
import AnswerGrading.Proofs.PatternReading

/-!
Engines that give regular patterns their meaning. The regex engine does so in every state that calls
can bring it to, but for patterns beyond its size.
-/

namespace AnswerGrading

open Regex

variable {σ : Type}

def Pattern.regular? (p : Pattern) : Option Regular :=
  match Source.read p.modes p.text.toList with
  | .ok source => source.expression.regular? source.referred
  | .error _ => none

/-- Asked about a regular pattern, the engine answers whether some part of the subject matches. -/
def Engine.Understands (e : Engine σ) (s : σ) (p : Pattern) : Prop :=
  ∀ r, p.regular? = some r → ∀ subject : String, ∃ accepted,
    (e.ask s p subject).1 = .ok accepted ∧
    (accepted = true ↔ ∃ i j, i ≤ subject.toList.toArray.size ∧
      r.Matches subject.toList.toArray i j)

namespace Pattern

theorem compile_of_regular? {p : Pattern} {r : Regular} (h : p.regular? = some r) :
    p.compile = r.check.map .regular := by
  unfold regular? at h
  split at h
  · rename_i source hs
    simp only [compile, Program.compile, hs, bind, Except.bind, Source.program, h]
  · cases h

theorem matches_of_check {p : Pattern} {r : Regular} (h : p.regular? = some r)
    (hc : r.check = .ok r) (subject : String) :
    p.matches subject = .ok (r.occurs subject.toList.toArray) := by
  rw [Pattern.matches, compile_of_regular? h, hc]
  rfl

def Anchors (p : Pattern) (L : Language Char) : Prop :=
  ∃ r, p.regular? = some r ∧ r.Sound = true ∧
    ∀ subject : Array Char, (∃ i j, i ≤ subject.size ∧ r.Matches subject i j) ↔ subject.toList ∈ L

theorem anchors_of_means {p : Pattern} {depth : Nat} {text : List Char} {L : Language Char}
    (hi : p.ignoreCase = false) (hp : p.text.toList = ['^', '(', '?', ':'] ++ text ++ [')', '$'])
    (hd : depth + 1 < maxDepth) (h : Means p.dotAll depth text L) : p.Anchors L := by
  obtain ⟨source, r, hread, hr, hs, hl⟩ := h.anchored hd
  refine ⟨r, ?_, hs, hl⟩
  have hm : p.modes = dotModes p.dotAll := by rw [modes, hi]; rfl
  rw [regular?, hm, hp, hread]
  exact hr

end Pattern

theorem Engine.Understands.exists_accepted {e : Engine σ} {s : σ} {p : Pattern}
    (he : e.Understands s p) {L : Language Char} (hp : p.Anchors L) (subject : String) :
    ∃ accepted, (e.ask s p subject).1 = .ok accepted ∧ (accepted = true ↔ subject.toList ∈ L) := by
  obtain ⟨r, hr, -, hl⟩ := hp
  obtain ⟨accepted, ha, hiff⟩ := he r hr subject
  exact ⟨accepted, ha, hiff.trans (hl subject.toList.toArray)⟩

theorem Engine.Understands.accepts_iff {e : Engine σ} {s : σ} {p : Pattern}
    (he : e.Understands s p) {L : Language Char} (hp : p.Anchors L) (subject : String) :
    (e.ask s p subject).1 = .ok true ↔ subject.toList ∈ L := by
  obtain ⟨accepted, ha, hiff⟩ := he.exists_accepted hp subject
  rw [ha, Except.ok.injEq, hiff]

theorem Regex.Regular.check_cases {r : Regular} (h : r.Sound = true) :
    r.check = .error .tooLarge ∨ r.check = .ok r := by
  rw [Regular.check, if_neg (by simp [h])]
  split
  · exact .inl rfl
  · exact .inr rfl

theorem Pattern.Anchors.compile_cases {p : Pattern} {L : Language Char} (hp : p.Anchors L) :
    p.compile = .error .tooLarge ∨ ∃ program, p.compile = .ok program := by
  obtain ⟨r, hr, hs, -⟩ := hp
  rw [Pattern.compile_of_regular? hr]
  rcases Regular.check_cases hs with h | h
  · exact .inl (by rw [h]; rfl)
  · exact .inr ⟨.regular r, by rw [h]; rfl⟩

theorem Engine.ask_regex_of_anchors {c : Cache} (hc : c.Faithful) {p : Pattern} {L : Language Char}
    (hp : p.Anchors L) (subject : String) :
    p.compile = .error .tooLarge ∨
      ∃ accepted, (Engine.regex.ask c p subject).1 = .ok accepted ∧ (accepted = true ↔ subject.toList ∈ L) := by
  obtain ⟨r, hr, hs, hl⟩ := hp
  rcases Regular.check_cases hs with h | h
  · exact .inl (by rw [Pattern.compile_of_regular? hr, h]; rfl)
  · refine .inr ⟨_, (Engine.ask_regex hc p subject).trans (Pattern.matches_of_check hr h subject), ?_⟩
    rw [Regular.occurs_iff hs]
    exact hl subject.toList.toArray

theorem Regex.Regular.sound_of_check {r r' : Regular} (h : r.check = .ok r') :
    r.check = .ok r ∧ r.Sound = true := by
  have hc := h
  unfold Regular.check at hc
  split at hc
  · cases hc
  · rename_i hs
    split at hc
    · cases hc
    · cases hc
      exact ⟨h, by simpa using hs⟩

theorem Engine.regex_understands {c : Cache} (hc : c.Faithful) {p : Pattern} {program : Program}
    (hp : p.compile = .ok program) : Engine.regex.Understands c p := by
  intro r hr subject
  obtain ⟨r', h'⟩ : ∃ r', r.check = .ok r' := by
    rw [Pattern.compile_of_regular? hr] at hp
    cases h : r.check with
    | error d =>
        rw [h] at hp
        cases hp
    | ok r' => exact ⟨r', rfl⟩
  obtain ⟨hcheck, hs⟩ := Regular.sound_of_check h'
  exact ⟨_, (Engine.ask_regex hc p subject).trans (Pattern.matches_of_check hr hcheck subject),
    Regular.occurs_iff hs _⟩

end AnswerGrading
