import AnswerGrading.Fragment
import AnswerGrading.Proofs.ForkedTexts
import Mathlib.Data.List.Infix

/-!
Texts whose authored spaces are told apart from all other characters, with a space or a run of blanks
in each of these places.
-/

namespace AnswerGrading.Regex

def narrow (ms : List (Option Char)) : List Char :=
  ms.map (·.getD ' ')

def wide (ms : List (Option Char)) : List Char :=
  ms.flatMap fun
    | some c => [c]
    | none => Fragment.spaceRun

@[simp] theorem narrow_some (c : Char) (ms : List (Option Char)) :
    narrow (some c :: ms) = c :: narrow ms := rfl

@[simp] theorem narrow_none (ms : List (Option Char)) : narrow (none :: ms) = ' ' :: narrow ms := rfl

@[simp] theorem wide_some (c : Char) (ms : List (Option Char)) :
    wide (some c :: ms) = c :: wide ms := rfl

@[simp] theorem wide_none (ms : List (Option Char)) :
    wide (none :: ms) =
      '(' :: '?' :: ':' :: '[' :: ' ' :: '\\' :: 't' :: ']' :: '+' :: ')' :: wide ms := rfl

theorem length_narrow (ms : List (Option Char)) : (narrow ms).length = ms.length :=
  List.length_map ..

theorem length_le_wide (ms : List (Option Char)) : ms.length ≤ (wide ms).length := by
  induction ms with
  | nil => exact Nat.le_refl _
  | cons m ms ih =>
      cases m with
      | none => simp only [wide_none, List.length_cons]; omega
      | some c => simpa using ih

theorem narrow_append (ms ns : List (Option Char)) : narrow (ms ++ ns) = narrow ms ++ narrow ns :=
  List.map_append ..

theorem wide_append (ms ns : List (Option Char)) : wide (ms ++ ns) = wide ms ++ wide ns :=
  List.flatMap_append ..

theorem narrow_map_some (cs : List Char) : narrow (cs.map some) = cs :=
  (List.map_map ..).trans (List.map_id cs)

theorem wide_map_some (cs : List Char) : wide (cs.map some) = cs := by
  induction cs with
  | nil => rfl
  | cons c cs ih => rw [List.map_cons, wide_some, ih]

theorem not_commentFree_cons {c : Char} {cs : List Char} :
    ¬CommentFree (c :: cs) ↔ ['(', '?', '#'] <+: c :: cs ∨ ¬CommentFree cs := by
  simp only [CommentFree, not_not, List.infix_cons_iff]

theorem exists_of_wide_eq {c : Char} {cs : List Char} {ms : List (Option Char)}
    (h : wide ms = c :: cs) (hc : c ≠ '(') : ∃ ms', ms = some c :: ms' ∧ wide ms' = cs := by
  rcases ms with _ | ⟨_ | d, ms⟩
  · cases h
  · exact absurd (List.cons.inj h).1.symm hc
  · obtain ⟨rfl, hms⟩ := List.cons.inj h
    exact ⟨ms, rfl, hms⟩

theorem commentFree_wide {ms : List (Option Char)} (h : CommentFree (narrow ms)) :
    CommentFree (wide ms) := by
  induction ms with
  | nil => exact h
  | cons m ms ih =>
      have hms := ih (h.of_suffix (by cases m <;> exact List.suffix_cons ..))
      by_contra hn
      cases m with
      | none =>
          rw [wide_none] at hn
          iterate 10 rw [not_commentFree_cons] at hn
          simp [hms] at hn
      | some c =>
          rw [wide_some, not_commentFree_cons] at hn
          have hprefix := hn.resolve_right (not_not.2 hms)
          obtain ⟨rest, hrest⟩ := hprefix
          obtain ⟨rfl, hquestion⟩ := List.cons.inj hrest
          obtain ⟨ms, rfl, hhash⟩ := exists_of_wide_eq hquestion.symm (by decide)
          obtain ⟨ms, rfl, -⟩ := exists_of_wide_eq hhash (by decide)
          exact h (List.infix_append [] ['(', '?', '#'] (narrow ms))

theorem exists_forked (ms : List (Option Char)) :
    ∃ (p : List Char) (tail : List (Option Char)), ms = p.map some ++ tail ∧
      (tail = [] ∨ ∃ after, tail = none :: after) ∧
      Forked (narrow tail) (wide tail) (narrow ms) (wide ms) := by
  induction ms with
  | nil => exact ⟨[], [], rfl, .inl rfl, .refl []⟩
  | cons m ms ih =>
      cases m with
      | none =>
          have hlength : (narrow ms).length ≤
              ('[' :: ' ' :: '\\' :: 't' :: ']' :: '+' :: ')' :: wide ms).length := by
            have hwide := length_le_wide ms
            simp only [length_narrow, List.length_cons]
            omega
          exact ⟨[], none :: ms, rfl, .inr ⟨ms, rfl⟩, .here (.space hlength)⟩
      | some c =>
          obtain ⟨p, tail, rfl, htail, hf⟩ := ih
          exact ⟨c :: p, tail, rfl, htail, hf.cons c⟩

theorem length_narrow_le {tail : List (Option Char)} {n : Nat}
    (htail : tail = [] ∨ ∃ after, tail = none :: after)
    (h : ∀ after, tail = none :: after → after.length < n) : (narrow tail).length ≤ n := by
  rcases htail with rfl | ⟨after, rfl⟩
  · exact Nat.zero_le _
  · rw [length_narrow, List.length_cons]
    exact h after rfl

theorem exists_marked {p rest rest' : List Char} {tail : List (Option Char)}
    (hs : rest <:+ narrow (p.map some ++ tail))
    (h : Forked (narrow tail) (wide tail) rest rest') :
    ∃ ms, ms <:+ p.map some ++ tail ∧ rest = narrow ms ∧ rest' = wide ms := by
  obtain ⟨q, rfl, rfl⟩ := h.exists_append
  obtain ⟨w, hw⟩ := hs
  rw [narrow_append, narrow_map_some, ← List.append_assoc, List.append_cancel_right_eq] at hw
  refine ⟨q.map some ++ tail, ⟨w.map some, by simp [← hw]⟩, ?_, ?_⟩
  · rw [narrow_append, narrow_map_some]
  · rw [wide_append, wide_map_some]

end AnswerGrading.Regex
