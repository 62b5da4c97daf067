import AnswerGrading.Proofs.DelimitedPatterns
import Mathlib.Algebra.Ring.Parity
import Mathlib.Data.List.DropRight

/-!
Where a text stands when it ends: behind a whole lexeme, or in the middle of an escape. No pass
changes that, and behind a whole lexeme the passes that go lexeme by lexeme start anew.
-/

namespace AnswerGrading.Fragment

theorem endsLone_append {cs : List Char} (h : endsLone cs = false) (ds : List Char) :
    endsLone (cs ++ ds) = endsLone ds := by
  have happend := lexemes_append h ds
  rw [endsLone, endsLone, happend, List.getLast?_append]
  cases (lexemes ds).getLast? with
  | none => exact h
  | some l => rfl

theorem endsLone_concat (cs : List Char) (c : Char) :
    endsLone (cs ++ [c]) = (c == '\\' && !endsLone cs) := by
  cases h : endsLone cs with
  | false =>
      rw [endsLone_append h]
      simp [endsLone, lexemes]
  | true =>
      obtain ⟨before, rfl, hb⟩ := exists_of_endsLone h
      rw [List.append_assoc, endsLone_append hb]
      simp [endsLone, lexemes]

theorem endsLone_iff_odd (cs : List Char) :
    endsLone cs = true ↔ Odd (cs.rtakeWhile (· = '\\')).length := by
  induction cs using List.reverseRecOn with
  | nil => decide
  | append_singleton cs c ih =>
      rw [endsLone_concat]
      by_cases hc : c = '\\'
      · subst hc
        rw [List.rtakeWhile_concat_pos _ _ _ (by simp), List.length_append, List.length_singleton,
          Nat.odd_add_one, ← ih]
        simp
      · rw [List.rtakeWhile_concat_neg _ _ _ (by simpa using hc)]
        simp [hc]

theorem endsLone_flatMap {α : Type} {f : α → List Char} {xs : List α}
    (h : ∀ x ∈ xs.dropLast, endsLone (f x) = false) :
    endsLone (xs.flatMap f) = xs.getLast?.any fun x => endsLone (f x) := by
  induction xs with
  | nil => rfl
  | cons x xs ih =>
      cases xs with
      | nil => rw [List.flatMap_singleton, List.getLast?_singleton, Option.any_some]
      | cons y ys =>
          have hx := h x (List.mem_cons_self ..)
          have hys := ih fun z hz => h z (List.mem_cons_of_mem _ hz)
          rw [List.flatMap_cons, endsLone_append hx, hys, List.getLast?_cons_cons]

theorem Part.endsLone_after_eq (done : List Pass) (p : Part) :
    endsLone (p.after done) = endsLone p.source := by
  by_cases h : p = .lexeme (.single '\\')
  · subst h
    rfl
  · have hsource : p.after [] = p.source := after_eq_source fun _ _ _ => List.not_mem_nil
    rw [← hsource, endsLone_after h, endsLone_after h]

theorem endsLone_draft_parts (done : List Pass) (cs : List Char) :
    endsLone ((parts cs).flatMap (Part.after done)) = endsLone cs := by
  have hparts := ne_lone_of_mem_dropLast (r := .plain) (closed_lexemes cs)
  have hsource : ∀ p ∈ (parts cs).dropLast, endsLone p.source = false := by
    intro p hp
    rw [← p.endsLone_after_eq done]
    exact Part.endsLone_after (hparts p hp)
  have hafter : ∀ p ∈ (parts cs).dropLast, endsLone (p.after done) = false :=
    fun p hp => Part.endsLone_after (hparts p hp)
  conv_rhs => rw [← flatMap_source_parts cs, endsLone_flatMap hsource]
  rw [endsLone_flatMap hafter]
  simp only [Part.endsLone_after_eq]

namespace Pass

theorem run_eq_flatMap_after (pass : Pass) (cs : List Char) :
    pass.run cs = (parts cs).flatMap (Part.after [pass]) := by
  have hsource : Part.after [] = Part.source :=
    funext fun p => Part.after_eq_source fun _ _ _ => List.not_mem_nil
  have hrun := @run_parts pass [] (fun _ hq => nomatch hq) cs
  rwa [hsource, flatMap_source_parts] at hrun

theorem endsLone_run (pass : Pass) (cs : List Char) : endsLone (pass.run cs) = endsLone cs := by
  rw [run_eq_flatMap_after, endsLone_draft_parts]

theorem run_append {pass : Pass} (h : pass ≠ .redirects) {cs : List Char}
    (hc : endsLone cs = false) (ds : List Char) :
    pass.run (cs ++ ds) = pass.run cs ++ pass.run ds := by
  rw [run_eq h, run_eq h, run_eq h, lexemes_append hc, List.flatMap_append]

-- the redirections are left out: they look behind the end of the first text
example : expandRedirects (['<'] ++ ['<']) ≠ expandRedirects ['<'] ++ expandRedirects ['<'] := by
  decide

end Pass

theorem Lexeme.normalize_normalized (l : Lexeme) : l.normalized.normalize = l.normalize := by
  unfold normalized
  split
  · rfl
  · rfl
  · rfl
  · rfl

theorem normalizeEscapes_idem (cs : List Char) :
    normalizeEscapes (normalizeEscapes cs) = normalizeEscapes cs := by
  rw [normalizeEscapes, lexemes_normalizeEscapes, List.flatMap_map]
  simp only [Lexeme.normalize_normalized]
  rfl

/-- A text ends in a lone backslash when the backslashes at its end are odd in number. Behind any
other text the passes that go lexeme by lexeme start anew. No pass, that of the redirections
included, changes how a text ends, and the last pass has nothing left to do in what it made. -/
theorem passes_aligned :
    (∀ cs, endsLone cs = true ↔ Odd (cs.rtakeWhile (· = '\\')).length) ∧
    (∀ cs ds, endsLone cs = false →
      expandSpaces (cs ++ ds) = expandSpaces cs ++ expandSpaces ds ∧
      expandPipes (cs ++ ds) = expandPipes cs ++ expandPipes ds ∧
      normalizeEscapes (cs ++ ds) = normalizeEscapes cs ++ normalizeEscapes ds) ∧
    (∀ cs, (endsLone (expandSpaces cs) = true ↔ endsLone cs = true) ∧
      (endsLone (expandPipes cs) = true ↔ endsLone cs = true) ∧
      (endsLone (expandRedirects cs) = true ↔ endsLone cs = true) ∧
      (endsLone (normalizeEscapes cs) = true ↔ endsLone cs = true)) ∧
    ∀ cs, normalizeEscapes (normalizeEscapes cs) = normalizeEscapes cs := by
  refine ⟨endsLone_iff_odd, ?_, ?_, normalizeEscapes_idem⟩
  · intro cs ds h
    have happend {pass : Pass} (hp : pass ≠ .redirects) := Pass.run_append hp h ds
    exact ⟨@happend .spaces (by decide), @happend .pipes (by decide), @happend .escapes (by decide)⟩
  · intro cs
    have hends (pass : Pass) : endsLone (pass.run cs) = true ↔ endsLone cs = true := by
      rw [pass.endsLone_run]
    exact ⟨hends .spaces, hends .pipes, hends .redirects, hends .escapes⟩

/-- An escaped bracket behind an escaped backslash, and the name of a group that goes on to the end
of the text. -/
theorem passes_aligned_escapedBracket :
    let cs := "\\\\\\< ;".toList
    let ds := "/(?<n;\\\\\\".toList
    endsLone cs = false ∧ Odd (ds.rtakeWhile (· = '\\')).length ∧
      normalizeEscapes (cs ++ ds) = "\\\\< ;\\/(?<n;\\\\\\".toList ∧
      normalizeEscapes (cs ++ ds) = normalizeEscapes cs ++ normalizeEscapes ds ∧
      expandPipes (cs ++ ds) = expandPipes cs ++ expandPipes ds ∧
      endsLone (expandRedirects ds) = true ∧
      normalizeEscapes (normalizeEscapes cs) = normalizeEscapes cs := by
  intro cs ds
  obtain ⟨hodd, happend, hends, hidem⟩ := passes_aligned
  have hcs : endsLone cs = false := by decide
  have hds : endsLone ds = true := by decide
  obtain ⟨-, hpipes, hescapes⟩ := happend cs ds hcs
  obtain ⟨-, -, hredirects, -⟩ := hends ds
  exact ⟨hcs, (hodd ds).1 hds, by decide, hescapes, hpipes, hredirects.2 hds, hidem cs⟩

end AnswerGrading.Fragment
