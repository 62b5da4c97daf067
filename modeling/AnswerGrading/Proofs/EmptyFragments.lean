import AnswerGrading.Proofs.Diagnosis
import AnswerGrading.Proofs.UniformAcceptance

namespace AnswerGrading

theorem dropBrackets_eq_nil_iff {cs : List Char} :
    dropBrackets cs = [] ↔ cs = [] ∨ cs = ['[', '['] := by
  unfold dropBrackets
  split
  · simp
  · rename_i hn
    constructor
    · exact .inl
    · rintro (rfl | rfl)
      · rfl
      · exact absurd rfl (hn [])

theorem cuts_nil_iff {cs : List Char} : Cuts cs [] [] ↔ cs = [] := by
  constructor
  · rintro ⟨⟩
    rfl
  · rintro rfl
    exact .last (startsNone_nil _ _)

/-- The text is in a form, and what it encloses is an empty fragment: white space with at most one
opening in front of the marker, or a line of the older form that is nothing but its options. -/
inductive Hollow (t : List Char) : Prop
  | brackets {head ws letters block : List Char} : MarkedAfter t head ws letters block →
      Text.trim head = [] ∨ Text.trim head = ['[', '['] → Hollow t
  | slashes {capitals : List Char} : ¬HasMarker t → Suffixed (legacyLine t) [] capitals → Hollow t

theorem Sections.fragments_eq_singleton_iff {s : Sections} {f : List Char} :
    s.fragments = [f] ↔ s.first = f ∧ s.others = [] := by
  rw [fragments, List.cons.injEq]

theorem read?_eq_legacy_iff {cs : List Char} {s : Sections} :
    Sections.read? cs = some (.legacy, s) ↔
      Sections.inForm? cs .current = none ∧ Sections.inForm? cs .legacy = some s := by
  constructor
  · intro h
    exact ⟨Specification.current_eq_none_of_read? h, Sections.inForm?_of_read? h⟩
  · rintro ⟨hc, hl⟩
    rw [Sections.read?, hc, hl]
    rfl

theorem read?_eq_current_iff {cs : List Char} {s : Sections} :
    Sections.read? cs = some (.current, s) ↔ Sections.inForm? cs .current = some s := by
  constructor
  · exact Sections.inForm?_of_read?
  · intro h
    rw [Sections.read?, h]

theorem hollow_iff {text : List Char} :
    Hollow (Text.withoutReturns text) ↔
      ∃ form s, Sections.read? text = some (form, s) ∧ s.fragments = [[]] := by
  constructor
  · intro h
    cases h with
    | @brackets head ws letters block hm ht =>
        have hcuts := cuts_nil_iff.2 (dropBrackets_eq_nil_iff.2 ht)
        exact ⟨.current, ⟨[], [], letters, block⟩,
          read?_eq_current_iff.2 (current?_eq_some_iff.2 ⟨head, ws, hm, hcuts⟩), rfl⟩
    | @slashes capitals hn hs =>
        let block := (Text.firstLine (Text.trim (Text.withoutReturns text))).2
        have hl : Sections.inForm? text .legacy = some ⟨[], [], capitals, block⟩ :=
          legacy?_eq_some_iff.2 ⟨hs, rfl, rfl⟩
        exact ⟨.legacy, _, read?_eq_legacy_iff.2 ⟨current?_eq_none_iff.2 hn, hl⟩, rfl⟩
  · rintro ⟨form, s, hread, hs⟩
    obtain ⟨hfirst, hothers⟩ := Sections.fragments_eq_singleton_iff.1 hs
    cases form with
    | current =>
        obtain ⟨head, ws, hm, hcuts⟩ := current?_eq_some_iff.1 (read?_eq_current_iff.1 hread)
        rw [hfirst, hothers] at hcuts
        exact .brackets hm (dropBrackets_eq_nil_iff.1 (cuts_nil_iff.1 hcuts))
    | legacy =>
        obtain ⟨hc, hl⟩ := read?_eq_legacy_iff.1 hread
        obtain ⟨hsuffixed, -, -⟩ := legacy?_eq_some_iff.1 hl
        rw [hfirst] at hsuffixed
        exact .slashes (current?_eq_none_iff.1 hc) hsuffixed

namespace Diagnostic

theorem ofFragments_empty : ofFragments [[]] = [] := by
  rfl

theorem ofSections_of_empty {profile : KeyProfile} {form : Form} {s : Sections}
    (h : s.fragments = [[]]) :
    ofSections profile form s =
      ofLetters form s.letters ++ ofLines profile none (SettingLine.readAll s.block) := by
  rw [ofSections, h, ofFragments_empty, List.append_nil]

end Diagnostic

namespace Specification

def InNoForm (text : String) : Prop :=
  ∀ form, ∃ err, inForm form text = .error err

theorem inNoForm_iff {text : String} : InNoForm text ↔ Sections.read? text.toList = none := by
  rw [read?_eq_none_iff, ← inForm_eq_error_iff, ← inForm_eq_error_iff]
  constructor
  · exact fun h => ⟨h .current, h .legacy⟩
  · rintro ⟨hc, hl⟩ form
    cases form with
    | current => exact hc
    | legacy => exact hl

theorem isDegenerate_ofSections_iff {form : Form} {s : Sections} :
    (ofSections form s).isDegenerate = true ↔ s.fragments = [[]] := by
  rw [isDegenerate_iff, fragments_ofSections]
  constructor
  · intro h
    refine List.map_injective_iff.2 (fun cs ds he => ?_) (h.trans rfl)
    exact String.ofList_injective he
  · intro h
    rw [h]
    rfl

/-- A text gives the degenerate specification when no form takes it, and then every profile calls it
malformed. It gives one as well when its only fragment is empty. No profile calls such a text
malformed, all that is found wrong with it is in its letters and lines, and no answer earns anything
for it. -/
theorem isDegenerate_parse_iff (text : String) :
    let t := Text.withoutReturns text.toList
    ((parse text).isDegenerate = true ↔ InNoForm text ∨ Hollow t) ∧
    (∀ profile, diagnose profile text = [.malformed] ↔ InNoForm text) ∧
    (Hollow t → ¬InNoForm text ∧
      (∃ form s, Sections.inForm? text.toList form = some s ∧ s.fragments = [[]] ∧
        ∀ profile, diagnose profile text = Diagnostic.ofLetters form s.letters ++
          Diagnostic.ofLines profile none (SettingLine.readAll s.block)) ∧
      ∀ {σ : Type} (e : Engine σ) (state : σ) (answer : String),
        ((parse text).score e state answer).1 = .ok 0.0) := by
  intro t
  have hparse {form : Form} {s : Sections} (hread : Sections.read? text.toList = some (form, s)) :
      parse text = ofSections form s := by
    rw [parse, hread]
  refine ⟨?_, ?_, ?_⟩
  · rw [inNoForm_iff, hollow_iff]
    cases hread : Sections.read? text.toList with
    | none =>
        rw [parse, hread]
        exact iff_of_true isDegenerate_degenerate (.inl rfl)
    | some found =>
        obtain ⟨form, s⟩ := found
        rw [hparse hread, isDegenerate_ofSections_iff]
        simp
  · intro profile
    rw [diagnose_eq_malformed_iff, inNoForm_iff, read?_eq_none_iff, inForm_eq_error_iff,
      inForm_eq_error_iff]
  · intro h
    obtain ⟨form, s, hread, hs⟩ := hollow_iff.1 h
    refine ⟨?_, ⟨form, s, Sections.inForm?_of_read? hread, hs, ?_⟩, ?_⟩
    · rw [inNoForm_iff, hread]
      exact Option.some_ne_none _
    · intro profile
      rw [diagnose, hread]
      exact Diagnostic.ofSections_of_empty hs
    · intro σ e state answer
      have hd : (parse text).isDegenerate = true := by
        rw [hparse hread]
        exact isDegenerate_ofSections_iff.2 hs
      rw [score_of_isDegenerate hd]

def blankFragment : String := "[[ ]]/O/\nseparator=,"

theorem hollow_blankFragment : Hollow (Text.withoutReturns blankFragment.toList) := by
  rw [hollow_iff]
  exact ⟨.current, ⟨[], [], ['O'], "\nseparator=,".toList⟩, by decide, rfl⟩

theorem isDegenerate_parse_iff_blankFragment :
    Hollow (Text.withoutReturns blankFragment.toList) ∧
    (parse blankFragment).isDegenerate = true ∧ ¬InNoForm blankFragment ∧
    diagnose .question blankFragment ≠ [.malformed] ∧
    ((parse blankFragment).score Engine.regex {} "").1 = .ok 0.0 := by
  obtain ⟨hdegenerate, hmalformed, hhollow⟩ := isDegenerate_parse_iff blankFragment
  obtain ⟨hform, -, hscore⟩ := hhollow hollow_blankFragment
  exact ⟨hollow_blankFragment, hdegenerate.2 (.inr hollow_blankFragment), hform,
    fun hm => hform ((hmalformed .question).1 hm), hscore Engine.regex {} ""⟩

/-- Nothing is wrong with the text, and no answer meets it. -/
theorem isDegenerate_parse_emptyBrackets :
    (parse "[[]]//").isDegenerate = true ∧ (∃ b, inForm .current "[[]]//" = .ok b) ∧
    (∀ profile, diagnose profile "[[]]//" = []) ∧
    ∀ answer, ((parse "[[]]//").score Engine.regex {} answer).1 = .ok 0.0 := by
  have hd : (parse "[[]]//").isDegenerate = true := by decide
  refine ⟨hd, ⟨_, rfl⟩, ?_, ?_⟩
  · intro profile
    cases profile with
    | question => decide
    | cloze => decide
  · intro answer
    rw [score_of_isDegenerate hd]

end Specification

end AnswerGrading
