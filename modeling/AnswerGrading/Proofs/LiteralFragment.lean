import AnswerGrading.Proofs.EngineMeaning
import AnswerGrading.Proofs.FragmentTokens
import AnswerGrading.Text

/-!
The language of a literal fragment: what its tokens spell, one after the other. An engine that gives
regular patterns their meaning accepts exactly that language.
-/

namespace AnswerGrading.Fragment

open AnswerGrading.Regex

def gaps : Language Char :=
  {w | ∀ c ∈ w, Text.isGap c = true}

def gapRun : Language Char :=
  {w | w ≠ [] ∧ w ∈ gaps}

def Token.language (fs : Flags) : Token → Language Char
  | .space => if fs.infiniteSpace then gapRun else {[' ']}
  | .semicolon => if fs.pipeSpace then gaps * ({[';']} + {['\n']}) * gaps else {[';']}
  | .pipe => if fs.pipeSpace then gaps * {['|']} * gaps else {['|']}
  | .redirect c doubled =>
      let w := if doubled then [c, c] else [c]
      if fs.redirectSpace then gaps * {w} * gaps else {w}
  | .exact c => {[c]}

/-- What a subject may hold for a fragment: words of its tokens, in their order. -/
def language (fs : Flags) (cs : List Char) : Language Char :=
  ((tokens (lexemes cs)).map (Token.language fs)).prod

theorem wordsOver_blank : wordsOver blank = gaps := by
  have hm (c : Char) : blank.mem c = Text.isGap c := by
    simp [blank, CharSet.mem, Text.isGap]
  ext w
  exact forall₂_congr fun c _ => by rw [hm]

variable {dot : Bool} {depth : Nat} {L : Language Char}

theorem means_spaces : Means dot depth spaces gaps := by
  have h : Means dot depth spaces {w | 0 ≤ w.length ∧ w ∈ wordsOver blank} :=
    .blanks (by decide) fun _ => rfl
  have hl : {w : List Char | 0 ≤ w.length ∧ w ∈ gaps} = gaps :=
    Set.ext fun w => ⟨And.right, fun hw => ⟨Nat.zero_le _, hw⟩⟩
  rw [wordsOver_blank] at h
  exact hl ▸ h

theorem means_spaceRun : Means dot (depth + 1) spaceRun gapRun := by
  have h : Means dot depth ['[', ' ', '\\', 't', ']', '+']
      {w | 1 ≤ w.length ∧ w ∈ wordsOver blank} :=
    .blanks (by decide) fun _ => rfl
  have hl : {w : List Char | 1 ≤ w.length ∧ w ∈ gaps} = gapRun :=
    Set.ext fun w => and_congr_left' List.length_pos_iff
  rw [wordsOver_blank] at h
  exact hl ▸ h.group

theorem means_spacedGroup {inner : List Char} (h : Means dot depth inner L) :
    Means dot (depth + 1) (spacedGroup inner) (gaps * L * gaps) := by
  simpa [spacedGroup] using ((means_spaces.append h).append means_spaces).group

theorem means_semicolonGroup :
    Means dot (depth + 2) semicolonGroup (gaps * ({[';']} + {['\n']}) * gaps) := by
  have hs : Means dot depth [';'] {[';']} := .literal (by decide)
  have hn : Means dot depth ['\\', 'n'] {['\n']} := .escaped fun _ => rfl
  exact means_spacedGroup (hs.either hn)

theorem means_pipe : Means dot depth ['\\', '|'] {['|']} :=
  .escaped fun _ => rfl

theorem means_bracket {c : Char} (hc : isRedirect c = true) : Means dot depth [c] {[c]} := by
  rcases eq_or_eq_of_isRedirect hc with rfl | rfl
  · exact .literal (by decide)
  · exact .literal (by decide)

theorem means_redirect {c : Char} (hc : isRedirect c = true) (doubled : Bool) :
    Means dot depth (if doubled then [c, c] else [c]) {if doubled then [c, c] else [c]} := by
  cases doubled with
  | false => exact means_bracket hc
  | true =>
      have h : Means dot depth [c, c] ({[c]} * {[c]}) :=
        (means_bracket hc).append (means_bracket hc)
      have hl : ({[c]} * {[c]} : Language Char) = {[c, c]} := Set.image2_singleton
      exact hl ▸ h

theorem means_exact {c : Char} (hc : c ∉ metacharacters) (fs : Flags) :
    Means dot depth ((Token.exact c).pattern fs) {[c]} := by
  rw [Token.pattern]
  split
  · rename_i hm
    simp only [List.mem_cons, List.not_mem_nil, or_false] at hm
    rcases hm with rfl | rfl | rfl
    · exact .escaped fun _ => rfl
    · exact .escaped fun _ => rfl
    · exact .escaped fun _ => rfl
  · have hs : '\x7b' :: special ⊆ metacharacters := by decide
    exact .literal fun hm => hc (hs hm)

theorem means_token (fs : Flags) {t : Token} (h : t.Proper) :
    Means dot (depth + 2) (t.pattern fs) (t.language fs) := by
  cases t with
  | space =>
      simp only [Token.pattern, Token.draft, Token.language]
      split
      · exact means_spaceRun
      · exact .literal (by decide)
  | semicolon =>
      simp only [Token.pattern, Token.draft, Token.language]
      split
      · exact means_semicolonGroup
      · exact .literal (by decide)
  | pipe =>
      simp only [Token.pattern, Token.draft, Token.language]
      split
      · exact means_spacedGroup means_pipe
      · exact means_pipe
  | redirect c doubled =>
      simp only [Token.pattern, Token.draft, Token.language]
      split
      · exact means_spacedGroup (means_redirect h doubled)
      · exact means_redirect h doubled
  | exact c => exact means_exact h fs

theorem means_flatMap {α : Type} {text : α → List Char} {L : α → Language Char} {xs : List α}
    (h : ∀ x ∈ xs, Means dot depth (text x) (L x)) :
    Means dot depth (xs.flatMap text) (xs.map L).prod := by
  induction xs with
  | nil => exact .nil
  | cons x xs ih =>
      rw [List.flatMap_cons, List.map_cons, List.prod_cons]
      exact (h x (List.mem_cons_self ..)).append (ih fun y hy => h y (List.mem_cons_of_mem _ hy))

theorem means_body (fs : Flags) {cs : List Char} (h : Literal cs) :
    Means dot (depth + 2) (body fs cs) (language fs cs) := by
  rw [body_eq_flatMap fs h, language]
  exact means_flatMap fun t ht => means_token fs (proper_of_mem_tokens h ht)

theorem anchors_synthesize {fragment : String} (h : Literal fragment.toList) {fs : Flags}
    (hi : fs.ignoreCase = false) :
    (synthesize fragment fs).Anchors (language fs fragment.toList) := by
  exact Pattern.anchors_of_means hi (toList_synthesize fragment fs) (by decide : 2 + 1 < maxDepth)
    (means_body fs h)

/-- An engine that gives regular patterns their meaning accepts the subjects that spell the tokens of
a literal fragment, and no others. The regex engine does so unless the pattern is too large. -/
theorem accepts_literal_iff {fragment : String} (h : Literal fragment.toList) {fs : Flags}
    (hi : fs.ignoreCase = false) (subject : String) :
    (∀ (σ : Type) (e : Engine σ) (s : σ), e.Understands s (synthesize fragment fs) →
      ((e.ask s (synthesize fragment fs) subject).1 = .ok true ↔
        subject.toList ∈ language fs fragment.toList)) ∧
    ∀ c : Cache, c.Faithful → (synthesize fragment fs).compile = .error .tooLarge ∨
      ∃ accepted, (Engine.regex.ask c (synthesize fragment fs) subject).1 = .ok accepted ∧
        (accepted = true ↔ subject.toList ∈ language fs fragment.toList) :=
  have hp := anchors_synthesize h hi
  ⟨fun _ _ _ he => he.accepts_iff hp subject, fun _ hc => Engine.ask_regex_of_anchors hc hp subject⟩

def everyToken : String :=
  "a  \\ b<<x>;y\\|\\</\\;"

def widened : Flags where
  pipeSpace := true
  redirectSpace := true

theorem accepts_literal_iff_everyToken :
    Literal everyToken.toList ∧ widened.ignoreCase = false ∧
      Engine.regex.Understands {} (synthesize everyToken widened) ∧ Cache.Faithful {} ∧
      "a \t   b << x>\ny |\t</;".toList ∈ language widened everyToken.toList ∧
      "a   b<<x>;y|</ ;".toList ∉ language widened everyToken.toList := by
  have h : Literal everyToken.toList := by decide
  have hi : widened.ignoreCase = false := rfl
  have hc := Cache.faithful_empty
  have hcompile : (synthesize everyToken widened).compile =
      Program.compile {} (anchored (body widened everyToken.toList)) := by
    rw [Pattern.compile, toList_synthesize]
    rfl
  obtain ⟨program, hp⟩ : ∃ program, (synthesize everyToken widened).compile = .ok program := by
    have hok : (Program.compile {} (anchored (body widened everyToken.toList))).isOk = true := by
      decide +kernel
    rw [hcompile]
    cases hp : Program.compile {} (anchored (body widened everyToken.toList)) with
    | error d => simp [hp, Except.isOk, Except.toBool] at hok
    | ok program => exact ⟨program, rfl⟩
  have he := Engine.regex_understands hc hp
  have haccepted : (Engine.regex.ask {} (synthesize everyToken widened)
      "a \t   b << x>\ny |\t</;").1 = .ok true := by
    rw [Engine.ask_regex hc, Pattern.matches, hcompile]
    decide +kernel
  have hrefused : (Engine.regex.ask {} (synthesize everyToken widened) "a   b<<x>;y|</ ;").1 =
      .ok false := by
    rw [Engine.ask_regex hc, Pattern.matches, hcompile]
    decide +kernel
  refine ⟨h, hi, he, hc, ?_, fun hm => ?_⟩
  · exact ((accepts_literal_iff h hi _).1 Cache Engine.regex {} he).1 haccepted
  · obtain hl | ⟨accepted, ha, hiff⟩ := (accepts_literal_iff h hi _).2 {} hc
    · rw [hp] at hl
      cases hl
    · rw [hrefused, hiff.2 hm] at ha
      cases ha

end AnswerGrading.Fragment
