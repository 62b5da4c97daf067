import AnswerGrading.Fragment

/-!
The passes over a fragment put together from parts. A text that does not end in a lone backslash is
read into lexemes on its own, so a pass over lexemes can be made part by part.
-/

namespace AnswerGrading.Fragment

theorem getLast?_cons_eq_false {l : Lexeme} {ls : List Lexeme}
    (h : ((l :: ls).getLast? == some (.single '\\')) = false) :
    (ls.getLast? == some (.single '\\')) = false := by
  cases ls with
  | nil => rfl
  | cons m ls => rwa [List.getLast?_cons_cons] at h

theorem lexemes_append {cs : List Char} (h : endsLone cs = false) (ds : List Char) :
    lexemes (cs ++ ds) = lexemes cs ++ lexemes ds := by
  unfold endsLone at h
  fun_induction lexemes cs with
  | case1 => rfl
  | case2 c =>
      have hc : c ≠ '\\' := by
        rintro rfl
        cases h
      cases ds with
      | nil => rfl
      | cons d ds => simp [lexemes, hc]
  | case3 d cs ih =>
      have hcs := ih (getLast?_cons_eq_false h)
      simpa [lexemes] using hcs
  | case4 c d cs hc ih =>
      have hcs := ih (getLast?_cons_eq_false h)
      simpa [lexemes, hc] using hcs

theorem endsLone_text {l : Lexeme} (h : l ≠ .single '\\') : endsLone l.text = false := by
  cases l with
  | pair c => rfl
  | single c =>
      simpa [Lexeme.text, endsLone, lexemes] using h

theorem lexemes_flatMap {α : Type} {f : α → List Char} {xs : List α}
    (h : ∀ x ∈ xs.dropLast, endsLone (f x) = false) :
    lexemes (xs.flatMap f) = xs.flatMap fun x => lexemes (f x) := by
  induction xs with
  | nil => rfl
  | cons x xs ih =>
      cases xs with
      | nil => rw [List.flatMap_singleton, List.flatMap_singleton]
      | cons y ys =>
          have hx := h x (List.mem_cons_self ..)
          have hys := ih fun z hz => h z (List.mem_cons_of_mem _ hz)
          rw [List.flatMap_cons, lexemes_append hx, hys]
          rfl

theorem pass_flatMap {α : Type} {f : α → List Char} {xs : List α}
    (h : ∀ x ∈ xs.dropLast, endsLone (f x) = false) (pass : Lexeme → List Char) :
    (lexemes (xs.flatMap f)).flatMap pass = xs.flatMap fun x => (lexemes (f x)).flatMap pass := by
  rw [lexemes_flatMap h, List.flatMap_assoc]

theorem expandPipes_flatMap {α : Type} {f : α → List Char} {xs : List α}
    (h : ∀ x ∈ xs, endsLone (f x) = false) :
    expandPipes (xs.flatMap f) = xs.flatMap fun x => expandPipes (f x) :=
  pass_flatMap (fun x hx => h x (List.dropLast_subset _ hx)) Lexeme.expandPipe

theorem normalizeEscapes_flatMap {α : Type} {f : α → List Char} {xs : List α}
    (h : ∀ x ∈ xs, endsLone (f x) = false) :
    normalizeEscapes (xs.flatMap f) = xs.flatMap fun x => normalizeEscapes (f x) :=
  pass_flatMap (fun x hx => h x (List.dropLast_subset _ hx)) Lexeme.normalize

theorem expandFrom_pair (c : Char) (cs : List Char) :
    expandFrom .none ('\\' :: c :: cs) = '\\' :: c :: expandFrom .none cs := by
  simp [expandFrom]

theorem expandFrom_single {c : Char} (hb : c ≠ '\\') (ho : c ≠ '(') (hr : isRedirect c = false)
    (cs : List Char) : expandFrom .none (c :: cs) = c :: expandFrom .none cs := by
  cases cs <;> simp [expandFrom, hb, ho, hr]

theorem expandFrom_group (cs : List Char) :
    expandFrom .none ('(' :: '?' :: ':' :: cs) = '(' :: '?' :: ':' :: expandFrom .none cs := by
  cases cs <;> simp [expandFrom, isRedirect]

theorem expandFrom_spaceRun (cs : List Char) :
    expandFrom .none (spaceRun ++ cs) = spaceRun ++ expandFrom .none cs := by
  simp [spaceRun, expandFrom_group, expandFrom_pair, expandFrom_single, isRedirect]

theorem expandFrom_spacedGroup {inner : List Char}
    (h : ∀ cs, expandFrom .none (inner ++ cs) = inner ++ expandFrom .none cs) (cs : List Char) :
    expandFrom .none (spacedGroup inner ++ cs) = spacedGroup inner ++ expandFrom .none cs := by
  simp [spacedGroup, spaces, expandFrom_group, expandFrom_pair, expandFrom_single, isRedirect, h]

theorem expandFrom_semicolonGroup (cs : List Char) :
    expandFrom .none (semicolonGroup ++ cs) = semicolonGroup ++ expandFrom .none cs := by
  refine expandFrom_spacedGroup (fun cs => ?_) cs
  simp [expandFrom_group, expandFrom_pair, expandFrom_single, isRedirect]

theorem expandFrom_pipeGroup (cs : List Char) :
    expandFrom .none (pipeGroup ++ cs) = pipeGroup ++ expandFrom .none cs :=
  expandFrom_spacedGroup (fun cs => expandFrom_pair '|' cs) cs

theorem expandFrom_doubled {c : Char} (hr : isRedirect c = true) (cs : List Char) :
    expandFrom .none (c :: c :: cs) = redirectGroup c true ++ expandFrom .none cs := by
  have hb : c ≠ '\\' := by rintro rfl; cases hr
  have ho : c ≠ '(' := by rintro rfl; cases hr
  simp [expandFrom, hb, ho, hr]

theorem expandFrom_redirect {c : Char} (hr : isRedirect c = true) {cs : List Char}
    (hc : cs.head? ≠ some c) :
    expandFrom .none (c :: cs) = redirectGroup c false ++ expandFrom .none cs := by
  have hb : c ≠ '\\' := by rintro rfl; cases hr
  have ho : c ≠ '(' := by rintro rfl; cases hr
  cases cs with
  | nil => simp [expandFrom, hb, ho, hr]
  | cons d ds =>
      have hd : d ≠ c := by simpa using hc
      simp [expandFrom, hb, ho, hr, hd]

end AnswerGrading.Fragment
