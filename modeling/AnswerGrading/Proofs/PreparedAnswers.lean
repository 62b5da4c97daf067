import AnswerGrading.Answer
import Mathlib.Data.List.DropRight

/-!
Prepared answers line by line. What an answer is prepared to depends on its lines without carriage
returns alone, and blank lines at an end that is cut off make no difference.
-/

namespace AnswerGrading

namespace Text

theorem dropWhile_rdropWhile {α : Type} (p : α → Bool) (xs : List α) :
    (xs.rdropWhile p).dropWhile p = (xs.dropWhile p).rdropWhile p := by
  induction xs using List.reverseRecOn with
  | nil => rfl
  | append_singleton xs x ih =>
      by_cases hx : p x = true
      · rw [List.rdropWhile_concat_pos p xs x hx, ih, List.dropWhile_append]
        split
        · rename_i hnil
          rw [List.isEmpty_iff.1 hnil, List.dropWhile_cons_of_pos hx, List.dropWhile_nil]
        · rw [List.rdropWhile_concat_pos p _ x hx]
      · rw [List.rdropWhile_concat_neg p xs x hx, List.dropWhile_append]
        split
        · rw [List.dropWhile_cons_of_neg hx, List.rdropWhile_singleton, if_neg hx]
        · rw [List.rdropWhile_concat_neg p _ x hx]

theorem rdropWhile_append_of_pos {α : Type} {p : α → Bool} {ys : List α}
    (h : ∀ y ∈ ys, p y = true) (xs : List α) : (xs ++ ys).rdropWhile p = xs.rdropWhile p := by
  induction ys using List.reverseRecOn with
  | nil => rw [List.append_nil]
  | append_singleton ys y ih =>
      have hy : p y = true := h y (by simp)
      rw [← List.append_assoc, List.rdropWhile_concat_pos p _ y hy]
      apply ih
      intro z hz
      exact h z (List.mem_append_left _ hz)

theorem trimBy_append {p : Char → Bool} {left right : List Char} (hl : ∀ c ∈ left, p c = true)
    (hr : ∀ c ∈ right, p c = true) (cs : List Char) :
    trimBy p (left ++ cs ++ right) = trimBy p cs := by
  change ((left ++ cs ++ right).dropWhile p).rdropWhile p = (cs.dropWhile p).rdropWhile p
  rw [List.append_assoc, List.dropWhile_append_of_pos hl, ← dropWhile_rdropWhile,
    rdropWhile_append_of_pos hr, dropWhile_rdropWhile]

theorem withoutReturns_append (cs ds : List Char) :
    withoutReturns (cs ++ ds) = withoutReturns cs ++ withoutReturns ds :=
  List.filter_append ..

theorem lines_withoutReturns (cs : List Char) :
    lines (withoutReturns cs) = (lines cs).map withoutReturns := by
  induction cs with
  | nil => rfl
  | cons c cs ih =>
      have hhead (d : Char) : (consHead d (lines cs)).map withoutReturns =
          if d = '\r' then (lines cs).map withoutReturns
          else consHead d ((lines cs).map withoutReturns) := by
        match hl : lines cs, lines_ne_nil cs with
        | l :: ls, _ => by_cases hd : d = '\r' <;> simp [consHead, withoutReturns, hd]
      by_cases hn : c = '\n'
      · subst hn
        simpa [withoutReturns, lines] using ih
      · rw [lines, if_neg hn, hhead]
        by_cases hr : c = '\r'
        · subst hr
          rw [if_pos rfl, ← ih]
          rfl
        · rw [if_neg hr, ← ih]
          simp [withoutReturns, lines, hr, hn]

theorem lines_unlines {ls : List (List Char)} (hne : ls ≠ []) (h : ∀ l ∈ ls, '\n' ∉ l) :
    lines (unlines ls) = ls := by
  induction ls with
  | nil => exact absurd rfl hne
  | cons l ls ih =>
      have hl := h l (List.mem_cons_self ..)
      cases ls with
      | nil => simpa [unlines] using lines_eq_self hl
      | cons m ls =>
          rw [unlines_cons_cons, lines_append_newline hl, ih (List.cons_ne_nil m ls)]
          intro k hk
          exact h k (List.mem_cons_of_mem l hk)

end Text

namespace Answer

open AnswerGrading.Text

def keptLines (trims : Bool) (ls : List (List Char)) : List (List Char) :=
  dropBlankStart trims (dropBlankEnd (ls.map (trimIf trims)))

theorem prepare_eq (trims : Bool) (answer : List Char) :
    prepare trims answer = unlines (keptLines trims ((lines answer).map withoutReturns)) := by
  rw [← lines_withoutReturns]
  rfl

theorem trimBy_of_all {p : Char → Bool} {cs : List Char} (h : ∀ c ∈ cs, p c = true) :
    trimBy p cs = [] := by
  have hnone : ∀ c ∈ ([] : List Char), p c = true := fun c hc => nomatch hc
  have hnil := trimBy_append h hnone []
  rwa [List.append_nil, List.append_nil] at hnil

theorem isBlank_trimIf (trims : Bool) {l : List Char} (h : isBlank l = true) :
    isBlank (trimIf trims l) = true := by
  cases trims with
  | false => exact h
  | true =>
      have hnil : trimIf true l = [] := trimBy_of_all (List.all_eq_true.1 h)
      rw [hnil]
      rfl

theorem isBlank_of_mem_map_trimIf (trims : Bool) {ls : List (List Char)}
    (h : ∀ l ∈ ls, isBlank l = true) : ∀ l ∈ ls.map (trimIf trims), isBlank l = true := by
  intro l hl
  obtain ⟨m, hm, rfl⟩ := List.mem_map.1 hl
  exact isBlank_trimIf trims (h m hm)

theorem keptLines_append_blank (trims : Bool) {blanks : List (List Char)}
    (h : ∀ l ∈ blanks, isBlank l = true) (ls : List (List Char)) :
    keptLines trims (ls ++ blanks) = keptLines trims ls := by
  have hdrop : dropBlankEnd ((ls ++ blanks).map (trimIf trims)) =
      dropBlankEnd (ls.map (trimIf trims)) := by
    rw [List.map_append]
    exact rdropWhile_append_of_pos (isBlank_of_mem_map_trimIf trims h) _
  rw [keptLines, hdrop, keptLines]

theorem keptLines_blank_append {blanks : List (List Char)}
    (h : ∀ l ∈ blanks, isBlank l = true) (ls : List (List Char)) :
    keptLines true (blanks ++ ls) = keptLines true ls := by
  have hkept (ms : List (List Char)) :
      keptLines true ms = ((ms.map (trimIf true)).dropWhile isBlank).rdropWhile isBlank :=
    dropWhile_rdropWhile isBlank _
  rw [hkept, hkept, List.map_append,
    List.dropWhile_append_of_pos (isBlank_of_mem_map_trimIf true h)]

theorem keptLines_eq_self {trims : Bool} {ls : List (List Char)}
    (ht : ∀ l ∈ ls, trimIf trims l = l) (hb : ∀ l ∈ ls, ¬isBlank l = true) :
    keptLines trims ls = ls := by
  have htrim : ls.map (trimIf trims) = ls := by
    rw [List.map_congr_left (g := id) ht, List.map_id]
  have hend : dropBlankEnd ls = ls :=
    List.rdropWhile_eq_self_iff.2 fun hne => hb _ (List.getLast_mem hne)
  have hstart : ls.dropWhile isBlank = ls :=
    List.dropWhile_eq_self_iff.2 fun hlen => hb _ (List.getElem_mem hlen)
  rw [keptLines, htrim, hend, dropBlankStart, hstart, ite_self]

end Answer

end AnswerGrading
