import AnswerGrading.Proofs.PreparedAnswers
import Mathlib.Data.List.Forall2

namespace AnswerGrading

namespace Text

variable {α : Type} {p : α → Bool} {both : Bool} {xs ys : List α}

/-- Without the longest run of elements with `p` at the end, or without those at both ends. -/
structure Stripped (both : Bool) (p : α → Bool) (xs ys : List α) : Prop where
  cut : ∃ left right, xs = left ++ ys ++ right ∧ (∀ x ∈ left, p x = true) ∧
    (∀ x ∈ right, p x = true) ∧ (both = false → left = [])
  first : both = true → ∀ y ∈ ys.head?, p y = false
  last : ∀ y ∈ ys.getLast?, p y = false

def strip (both : Bool) (p : α → Bool) (xs : List α) : List α :=
  if both then (xs.rdropWhile p).dropWhile p else xs.rdropWhile p

theorem head?_dropWhile (p : α → Bool) (xs : List α) :
    ∀ y ∈ (xs.dropWhile p).head?, p y = false := by
  intro y hy
  have hnot := List.head?_dropWhile_not p xs
  rwa [Option.mem_def.1 hy] at hnot

theorem getLast?_rdropWhile (p : α → Bool) (xs : List α) :
    ∀ y ∈ (xs.rdropWhile p).getLast?, p y = false := by
  intro y hy
  rw [List.rdropWhile, List.getLast?_reverse] at hy
  exact head?_dropWhile p xs.reverse y hy

theorem stripped_strip (both : Bool) (p : α → Bool) (xs : List α) :
    Stripped both p xs (strip both p xs) := by
  have hright : ∀ x ∈ xs.rtakeWhile p, p x = true := fun x hx => List.mem_rtakeWhile_imp hx
  cases both with
  | false =>
      refine ⟨⟨[], xs.rtakeWhile p, ?_, by simp, hright, fun _ => rfl⟩, by simp,
        getLast?_rdropWhile p xs⟩
      exact List.rdropWhile_append_rtakeWhile.symm
  | true =>
      refine ⟨⟨(xs.rdropWhile p).takeWhile p, xs.rtakeWhile p, ?_, ?_, hright, by simp⟩,
        fun _ => head?_dropWhile p _, ?_⟩
      · rw [strip, if_pos rfl, List.takeWhile_append_dropWhile, List.rdropWhile_append_rtakeWhile]
      · exact fun x hx => List.mem_takeWhile_imp hx
      · rw [strip, if_pos rfl, dropWhile_rdropWhile]
        exact getLast?_rdropWhile p _

theorem Stripped.eq_strip (h : Stripped both p xs ys) : ys = strip both p xs := by
  obtain ⟨left, right, rfl, hleft, hright, hfront⟩ := h.cut
  have hend : ys.rdropWhile p = ys := by
    rw [List.rdropWhile_eq_self_iff]
    intro hne
    simpa using h.last _ (List.getLast_mem_getLast? hne)
  rw [strip, rdropWhile_append_of_pos hright]
  cases both with
  | false => rw [hfront rfl, List.nil_append, hend, if_neg Bool.false_ne_true]
  | true =>
      have hstart : ys.dropWhile p = ys := by
        rw [List.dropWhile_eq_self_iff]
        intro hlen
        simpa using h.first rfl _ (List.head?_eq_getElem? ▸ List.getElem?_eq_getElem hlen)
      rw [if_pos rfl, dropWhile_rdropWhile, List.dropWhile_append_of_pos hleft, hstart, hend]

theorem Stripped.self (h : Stripped both p xs ys) : Stripped both p ys ys :=
  ⟨⟨[], [], by simp, by simp, by simp, fun _ => rfl⟩, h.first, h.last⟩

theorem trimBy_eq_strip (p : Char → Bool) (cs : List Char) : trimBy p cs = strip true p cs :=
  (dropWhile_rdropWhile p cs).symm

theorem strip_sublist (both : Bool) (p : α → Bool) (xs : List α) :
    (strip both p xs).Sublist xs := by
  obtain ⟨left, right, hxs, -⟩ := (stripped_strip both p xs).cut
  conv_rhs => rw [hxs]
  exact (List.sublist_append_right left _).trans (List.sublist_append_left _ right)

theorem not_mem_unlines {c : Char} (hc : c ≠ '\n') {ls : List (List Char)}
    (h : ∀ l ∈ ls, c ∉ l) : c ∉ unlines ls := by
  induction ls with
  | nil => simp [unlines, List.intercalate]
  | cons l ls ih =>
      rw [List.forall_mem_cons] at h
      cases ls with
      | nil => simpa [unlines, List.intercalate] using h.1
      | cons m ls =>
          rw [unlines_cons_cons, List.mem_append, List.mem_cons]
          simpa [hc, h.1] using ih h.2

end Text

namespace Answer

open AnswerGrading.Text

variable {trims : Bool} {answer : List Char} {ls : List (List Char)}

def Unpadded (trims : Bool) (line l : List Char) : Prop :=
  if trims then Stripped true isGap line l else l = line

theorem unpadded_trimIf (trims : Bool) (line : List Char) :
    Unpadded trims line (trimIf trims line) := by
  cases trims with
  | false => exact rfl
  | true =>
      have hline := stripped_strip true isGap line
      rwa [← trimBy_eq_strip] at hline

theorem trimIf_sublist (trims : Bool) (line : List Char) : (trimIf trims line).Sublist line := by
  cases trims with
  | false => exact List.Sublist.refl line
  | true =>
      have hline := strip_sublist true isGap line
      rwa [← trimBy_eq_strip] at hline

theorem trimIf_trimIf (trims : Bool) (line : List Char) :
    trimIf trims (trimIf trims line) = trimIf trims line := by
  cases trims with
  | false => rfl
  | true =>
      have hline : Stripped true isGap line (trimGaps line) := unpadded_trimIf true line
      exact (trimBy_eq_strip isGap _).trans hline.self.eq_strip.symm

theorem keptLines_eq_strip (trims : Bool) (ls : List (List Char)) :
    keptLines trims ls = strip trims isBlank (ls.map (trimIf trims)) :=
  rfl

theorem exists_of_mem_keptLines {l : List Char} (h : l ∈ keptLines trims ls) :
    ∃ line ∈ ls, trimIf trims line = l :=
  List.mem_map.1 ((strip_sublist trims isBlank _).subset h)

theorem not_mem_keptLines {c : Char} (h : ∀ l ∈ ls, c ∉ l) : ∀ l ∈ keptLines trims ls, c ∉ l := by
  intro l hl
  obtain ⟨line, hline, rfl⟩ := exists_of_mem_keptLines hl
  exact fun hc => h line hline ((trimIf_sublist trims line).subset hc)

theorem keptLines_keptLines (trims : Bool) (ls : List (List Char)) :
    keptLines trims (keptLines trims ls) = keptLines trims ls := by
  have htrim : ∀ l ∈ keptLines trims ls, trimIf trims l = id l := by
    intro l hl
    obtain ⟨line, -, rfl⟩ := exists_of_mem_keptLines hl
    exact trimIf_trimIf trims line
  rw [keptLines_eq_strip, List.map_congr_left htrim, List.map_id]
  exact (stripped_strip trims isBlank _).self.eq_strip.symm

theorem keptLines_keptLines_false (ls : List (List Char)) :
    keptLines true (keptLines false ls) = keptLines true ls := by
  have hkept : keptLines false ls = strip false isBlank ls :=
    congrArg (strip false isBlank) (List.map_id ls)
  obtain ⟨left, right, hls, -, hright, hleft⟩ := (stripped_strip false isBlank ls).cut
  rw [hleft rfl, List.nil_append, ← hkept] at hls
  conv_rhs => rw [hls]
  exact (keptLines_append_blank true hright _).symm

theorem prepare_unlines (trims : Bool) (hn : ∀ l ∈ ls, '\n' ∉ l) (hr : ∀ l ∈ ls, '\r' ∉ l) :
    prepare trims (unlines ls) = unlines (keptLines trims ls) := by
  rw [prepare_eq]
  by_cases hne : ls = []
  · subst hne
    have hblank : ∀ l ∈ [([] : List Char)], isBlank l = true := by simp [isBlank]
    exact congrArg unlines (keptLines_append_blank trims hblank [])
  · have hbare : ls.map withoutReturns = ls := by
      rw [List.map_congr_left fun l hl => withoutReturns_eq_self (hr l hl), List.map_id']
    rw [lines_unlines hne hn, hbare]

def bareLines (answer : List Char) : List (List Char) :=
  (lines answer).map withoutReturns

theorem newline_not_mem_bareLines (answer : List Char) : ∀ l ∈ bareLines answer, '\n' ∉ l := by
  intro l hl
  obtain ⟨line, hline, rfl⟩ := List.mem_map.1 hl
  exact fun hc => newline_not_mem_lines hline (List.mem_filter.1 hc).1

theorem return_not_mem_bareLines (answer : List Char) : ∀ l ∈ bareLines answer, '\r' ∉ l := by
  intro l hl
  obtain ⟨line, -, rfl⟩ := List.mem_map.1 hl
  exact return_not_mem_withoutReturns line

theorem prepare_eq_unlines (trims : Bool) (answer : List Char) :
    prepare trims answer = unlines (keptLines trims (bareLines answer)) :=
  prepare_eq trims answer

theorem prepare_prepare (trims again : Bool) (answer : List Char) :
    prepare again (prepare trims answer) =
      unlines (keptLines again (keptLines trims (bareLines answer))) := by
  rw [prepare_eq_unlines trims]
  exact prepare_unlines again (not_mem_keptLines (newline_not_mem_bareLines answer))
    (not_mem_keptLines (return_not_mem_bareLines answer))

theorem lines_prepare (h : keptLines trims (bareLines answer) ≠ []) :
    lines (prepare trims answer) = keptLines trims (bareLines answer) := by
  rw [prepare_eq_unlines]
  exact lines_unlines h (not_mem_keptLines (newline_not_mem_bareLines answer))

theorem prepare_eq_nil_iff :
    prepare trims answer = [] ↔ keptLines trims (bareLines answer) = [] := by
  constructor
  · intro h
    by_contra hne
    have hlines := lines_prepare hne
    rw [h] at hlines
    have hlast := (stripped_strip trims isBlank ((bareLines answer).map (trimIf trims))).last
    rw [← keptLines_eq_strip, ← hlines] at hlast
    exact absurd (hlast [] rfl) (by simp [isBlank])
  · intro h
    rw [prepare_eq_unlines, h]
    rfl

theorem not_isGap_of_mem_lines {l : List Char} (h : l ∈ lines (prepare true answer)) :
    (∀ c ∈ l.head?, isGap c = false) ∧ ∀ c ∈ l.getLast?, isGap c = false := by
  by_cases hne : keptLines true (bareLines answer) = []
  · rw [prepare_eq_nil_iff.2 hne, lines, List.mem_singleton] at h
    subst h
    exact ⟨by simp, by simp⟩
  · rw [lines_prepare hne] at h
    obtain ⟨line, -, rfl⟩ := exists_of_mem_keptLines h
    have hline : Stripped true isGap line (trimIf true line) := unpadded_trimIf true line
    exact ⟨hline.first rfl, hline.last⟩

/-- A prepared answer is prepared already, and its lines are those of the answer without carriage
returns and padding, less the longest runs of blank ones where blank lines are dropped. Preparing
without trimming first makes no difference to a preparation that trims. -/
theorem prepare_normalizes (trims : Bool) (answer : List Char) :
    let text := prepare trims answer
    prepare trims text = text ∧ '\r' ∉ text ∧
    (text ≠ [] → ∀ l ∈ (lines text).getLast?, isBlank l = false) ∧
    (trims = true →
      (∀ l ∈ lines text, (∀ c ∈ l.head?, isGap c = false) ∧ ∀ c ∈ l.getLast?, isGap c = false) ∧
      (text ≠ [] → ∀ l ∈ (lines text).head?, isBlank l = false)) ∧
    (∃ unpadded kept, List.Forall₂ (Unpadded trims) (bareLines answer) unpadded ∧
      Stripped trims isBlank unpadded kept ∧
      (text = [] ∧ kept = [] ∨ text ≠ [] ∧ lines text = kept)) ∧
    prepare true (prepare false answer) = prepare true answer := by
  intro text
  have hkept := stripped_strip trims isBlank ((bareLines answer).map (trimIf trims))
  rw [← keptLines_eq_strip] at hkept
  have hlines (h : text ≠ []) : lines text = keptLines trims (bareLines answer) :=
    lines_prepare (mt prepare_eq_nil_iff.2 h)
  refine ⟨?_, ?_, ?_, ?_, ⟨_, _, ?_, hkept, ?_⟩, ?_⟩
  · rw [prepare_prepare, keptLines_keptLines, ← prepare_eq_unlines]
  · rw [show text = _ from prepare_eq_unlines trims answer]
    exact not_mem_unlines (by decide) (not_mem_keptLines (return_not_mem_bareLines answer))
  · intro h
    rw [hlines h]
    exact hkept.last
  · rintro rfl
    refine ⟨fun l hl => not_isGap_of_mem_lines hl, fun h => ?_⟩
    rw [hlines h]
    exact hkept.first rfl
  · rw [List.forall₂_map_right_iff, List.forall₂_same]
    exact fun l _ => unpadded_trimIf trims l
  · by_cases h : text = []
    · exact .inl ⟨h, prepare_eq_nil_iff.1 h⟩
    · exact .inr ⟨h, hlines h⟩
  · rw [prepare_prepare, keptLines_keptLines_false, ← prepare_eq_unlines]

def paddedBlanks : List Char :=
  " \r\n\ta \n\n b\t\n \t\n".toList

theorem prepare_normalizes_paddedBlanks :
    lines (prepare true paddedBlanks) = [['a'], [], ['b']] ∧
    (prepare true paddedBlanks ≠ [] ∧ ∀ l ∈ (lines (prepare true paddedBlanks)).head?,
      isBlank l = false) ∧
    (∀ l ∈ lines (prepare true paddedBlanks),
      (∀ c ∈ l.head?, isGap c = false) ∧ ∀ c ∈ l.getLast?, isGap c = false) ∧
    lines (prepare false paddedBlanks) = [[' '], ['\t', 'a', ' '], [], [' ', 'b', '\t']] ∧
    (prepare false paddedBlanks ≠ [] ∧ ∀ l ∈ (lines (prepare false paddedBlanks)).getLast?,
      isBlank l = false) ∧
    prepare true (prepare false paddedBlanks) = prepare true paddedBlanks := by
  obtain ⟨-, -, -, htrimmed, -, htwice⟩ := prepare_normalizes true paddedBlanks
  obtain ⟨hends, hfirst⟩ := htrimmed rfl
  obtain ⟨-, -, hlast, -⟩ := prepare_normalizes false paddedBlanks
  have hne : prepare true paddedBlanks ≠ [] := by decide +kernel
  have hne' : prepare false paddedBlanks ≠ [] := by decide +kernel
  exact ⟨by decide +kernel, ⟨hne, hfirst hne⟩, hends, by decide +kernel, ⟨hne', hlast hne'⟩, htwice⟩

end Answer

end AnswerGrading
