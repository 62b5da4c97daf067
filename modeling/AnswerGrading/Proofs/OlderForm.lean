import AnswerGrading.Proofs.Recognition
import Mathlib

namespace AnswerGrading

def currentLetter (c : Char) : Char :=
  if c = 'S' ∨ c = 'T' then c.toLower else c

namespace Flags

theorem toUpper_of_isUpper {c : Char} (h : c.isUpper = true) : c.toUpper = c := by
  rw [Char.toUpper, dif_neg]
  intro hlower
  simp only [Char.isUpper, decide_eq_true_eq] at h
  exact absurd (UInt32.le_trans hlower.1 h.2) (by decide)

theorem applyOption_currentLetter {c : Char} (h : c.isUpper = true) (fs : Flags) :
    fs.applyOption (currentLetter c) = fs.applyLegacyOption c := by
  by_cases hc : c = 'S' ∨ c = 'T'
  · rcases hc with rfl | rfl
    · rfl
    · rfl
  · rw [currentLetter, if_neg hc, applyOption, applyLegacyOption, option?, legacyOption?,
      toUpper_of_isUpper h, h]
    cases hf : Flag.ofLetter? c with
    | none => rfl
    | some f =>
        have hon : f.onByDefault = false := by
          rw [← Flag.letter_of_ofLetter? hf] at hc
          cases f <;> first | rfl | exact absurd (by decide) hc
        rw [Option.map_some, Option.map_some, hon]
        rfl

theorem ofOptions_map_currentLetter {cs : List Char} (h : ∀ c ∈ cs, c.isUpper = true) :
    ofOptions (cs.map currentLetter) = ofLegacyOptions cs := by
  rw [ofOptions, ofLegacyOptions, List.foldl_map]
  apply List.foldl_ext
  intro fs c hc
  exact applyOption_currentLetter (h c hc) fs

end Flags

theorem letters_map_currentLetter {cs : List Char} (h : ∀ c ∈ cs, c.isUpper = true) :
    Letters (cs.map currentLetter) := by
  intro d hd
  obtain ⟨c, hc, rfl⟩ := List.mem_map.1 hd
  by_cases hs : c = 'S' ∨ c = 'T'
  · rcases hs with rfl | rfl
    · decide
    · decide
  · rw [currentLetter, if_neg hs, Char.isAlpha, h c hc, Bool.true_or]

theorem Holds.of_infix {shape : List Char → Prop} {cs ds : List Char} (h : Holds shape cs)
    (hi : cs <:+: ds) : Holds shape ds := by
  obtain ⟨before, tail, after, ht, rfl⟩ := h
  obtain ⟨left, right, rfl⟩ := hi
  exact ⟨left ++ before, tail, after ++ right, ht, by simp⟩

theorem isInfix_trim (cs : List Char) : Text.trim cs <:+: cs := by
  have hend : Text.trim cs <+: cs.dropWhile Unicode.isSpace := List.rdropWhile_prefix _ _
  exact hend.isInfix.trans (List.dropWhile_suffix _).isInfix

theorem isPrefix_firstLine (cs : List Char) : (Text.firstLine cs).1 <+: cs :=
  List.takeWhile_prefix _

theorem isSuffix_firstLine (cs : List Char) : (Text.firstLine cs).2 <:+ cs :=
  (List.drop_suffix 1 _).trans (List.dropWhile_suffix _)

theorem isInfix_legacyLine (cs : List Char) : legacyLine cs <:+: cs := by
  have hend : legacyLine cs <+: (Text.firstLine (Text.trim cs)).1 := List.rdropWhile_prefix _ _
  exact (hend.trans (isPrefix_firstLine _)).isInfix.trans (isInfix_trim cs)

theorem Suffixed.isPrefix {line x capitals : List Char} (h : Suffixed line x capitals) : x <+: line :=
  ⟨'/' :: (capitals ++ ['/']), h.text.symm⟩

/-- `[[f]]/o/` with the letters that the current form has for `o`, and the block below it. -/
def currentText (f o block : List Char) : String :=
  .ofList (bracketed f ++ '/' :: (o.map currentLetter ++ '/' :: '\n' :: block))

theorem return_not_mem_currentText {f o block : List Char} (hf : '\r' ∉ f)
    (ho : ∀ c ∈ o, c.isUpper = true) (hb : '\r' ∉ block) :
    '\r' ∉ (currentText f o block).toList := by
  have hletters : '\r' ∉ o.map currentLetter := by
    intro hm
    exact absurd (letters_map_currentLetter ho _ hm) (by decide)
  simp [currentText, bracketed, hf, hletters, hb]

theorem readAll_newline (block : List Char) :
    SettingLine.readAll ('\n' :: block) = SettingLine.readAll block := by
  have hl : Text.lines ('\n' :: block) = [] :: Text.lines block := rfl
  rw [SettingLine.readAll, hl, List.filter_cons_of_neg (by decide)]
  rfl

namespace Specification

theorem ofSections_current {f o block : List Char} (ho : ∀ c ∈ o, c.isUpper = true) :
    ofSections .current ⟨f, [], o.map currentLetter, '\n' :: block⟩ =
      ofSections .legacy ⟨f, [], o, block⟩ := by
  simp only [ofSections, flagsOf, readAll_newline, Flags.ofOptions_map_currentLetter ho]

/-- A text that only the older form accepts says the same in the current form, as long as its
fragment holds no gap and does not end in white space. -/
theorem parse_currentText {text : String} {f o block : List Char} {err : FormError}
    (hcurrent : inForm .current text = .error err)
    (hlegacy : Sections.inForm? text.toList .legacy = some ⟨f, [], o, block⟩)
    (hgap : ¬HasGap f) (hend : ∀ c ∈ f.getLast?, Unicode.isSpace c = false) :
    inForm .legacy text = .ok (parse text) ∧
    inForm .current (currentText f o block) = .ok (parse text) ∧
    parse (currentText f o block) = parse text := by
  have hmarker : ¬HasMarker (Text.withoutReturns text.toList) := by
    intro hm
    obtain ⟨b, hb⟩ := exists_inForm_current_iff.2 hm
    rw [hcurrent] at hb
    cases hb
  obtain ⟨hline, -, hblock⟩ := legacy?_eq_some_iff.1 hlegacy
  have hf : f <:+: Text.withoutReturns text.toList :=
    hline.isPrefix.isInfix.trans (isInfix_legacyLine _)
  have hb : block <:+: Text.withoutReturns text.toList := by
    have hblock : block = (Text.firstLine (Text.trim _)).2 := hblock
    rw [hblock]
    exact (isSuffix_firstLine _).isInfix.trans (isInfix_trim _)
  have hreturn := Text.return_not_mem_withoutReturns text.toList
  have hlegacy' : inForm .legacy text = .ok (ofSections .legacy ⟨f, [], o, block⟩) := by
    rw [inForm, hlegacy]
  have hsections : Sections.inForm? (currentText f o block).toList .current =
      some ⟨f, [], o.map currentLetter, '\n' :: block⟩ := by
    rw [Sections.inForm?, Text.withoutReturns_eq_self (return_not_mem_currentText
      (fun hm => hreturn (hf.subset hm)) hline.upper fun hm => hreturn (hb.subset hm))]
    have hm : ¬HasMarker f := fun hm => hmarker (hm.of_infix hf)
    have hc := current?_enclosed (List.forall_mem_singleton.2 hm) (List.forall_mem_singleton.2 hgap)
      hend (letters_map_currentLetter hline.upper) ('\n' :: block)
    simpa [currentText, enclosed] using hc
  have hcurrent' : inForm .current (currentText f o block) = .ok (parse text) := by
    rw [inForm, hsections, parse_of_legacy hcurrent hlegacy']
    exact congrArg Except.ok (ofSections_current hline.upper)
  exact ⟨parse_of_legacy hcurrent hlegacy' ▸ hlegacy', hcurrent', parse_of_current hcurrent'⟩

def bracketsInside : String :=
  "[[a/b]] c]/SXSTI/\npoints=3\nseparator=, x"

theorem parse_currentText_bracketsInside :
    inForm .current bracketsInside = .error ⟨.current⟩ ∧
    ∃ f o block, Sections.inForm? bracketsInside.toList .legacy = some ⟨f, [], o, block⟩ ∧
      ¬HasGap f ∧ (∀ c ∈ f.getLast?, Unicode.isSpace c = false) ∧
      currentText f o block = "[[[[a/b]] c]]]/sXstI/\npoints=3\nseparator=, x" ∧
      parse (currentText f o block) = parse bracketsInside ∧
      (parse bracketsInside).flags =
        { ignoreCase := true, infiniteSpace := false, trimSpaces := false } := by
  have hcurrent : inForm .current bracketsInside = .error ⟨.current⟩ := by decide
  have hlegacy : Sections.inForm? bracketsInside.toList .legacy =
      some ⟨"[[a/b]] c]".toList, [], "SXSTI".toList, "points=3\nseparator=, x".toList⟩ := by
    decide
  have hgap : ¬HasGap "[[a/b]] c]".toList := by decide
  have hlast : "[[a/b]] c]".toList.getLast? = some ']' := by decide
  have hend : ∀ c ∈ "[[a/b]] c]".toList.getLast?, Unicode.isSpace c = false := by
    intro c hc
    cases hlast.symm.trans hc
    decide
  obtain ⟨-, -, hparse⟩ := parse_currentText hcurrent hlegacy hgap hend
  exact ⟨hcurrent, _, _, _, hlegacy, hgap, hend, by decide, hparse, by decide⟩

end Specification

end AnswerGrading
