import AnswerGrading.Proofs.FragmentPasses
import Mathlib.Data.List.Basic
import Mathlib.Data.List.Induction

/-!
The passes over a fragment as one reading of it. The raw text is cut into parts from left to right.
A part belongs to one pass at most, and whatever passes have run, the text is the raw one with the
parts of these passes replaced.
-/

namespace AnswerGrading.Fragment

inductive Pass where
  | spaces
  | pipes
  | redirects
  | escapes
  deriving DecidableEq, Repr

namespace Pass

def order : List Pass :=
  [.spaces, .pipes, .redirects, .escapes]

def rank : Pass → Nat
  | .spaces => 0
  | .pipes => 1
  | .redirects => 2
  | .escapes => 3

def Before (p q : Pass) : Prop :=
  p.rank < q.rank

instance (p q : Pass) : Decidable (p.Before q) :=
  inferInstanceAs (Decidable (p.rank < q.rank))

theorem order_pairwise : order.Pairwise Before := by decide

def isOn (fs : Flags) : Pass → Bool
  | .spaces => fs.infiniteSpace
  | .pipes => fs.pipeSpace
  | .redirects => fs.redirectSpace
  | .escapes => true

def run : Pass → List Char → List Char
  | .spaces => expandSpaces
  | .pipes => expandPipes
  | .redirects => expandRedirects
  | .escapes => normalizeEscapes

def runAll (fs : Flags) (passes : List Pass) (cs : List Char) : List Char :=
  passes.foldl (fun text pass => passIf (pass.isOn fs) pass.run text) cs

theorem runAll_order (fs : Flags) (cs : List Char) : runAll fs order cs = body fs cs :=
  rfl

theorem runAll_concat (fs : Flags) (passes : List Pass) (pass : Pass) (cs : List Char) :
    runAll fs (passes ++ [pass]) cs = passIf (pass.isOn fs) pass.run (runAll fs passes cs) := by
  simp [runAll, List.foldl_append]

end Pass

inductive Angle where
  | left
  | right
  deriving DecidableEq, Repr

def Angle.char : Angle → Char
  | .left => '<'
  | .right => '>'

/-- What is copied or replaced as a whole: a lexeme, `(?<`, or a redirection. -/
inductive Part where
  | lexeme (l : Lexeme)
  | opener
  | redirect (a : Angle) (doubled : Bool)
  deriving DecidableEq, Repr

namespace Part

def source : Part → List Char
  | .lexeme l => l.text
  | .opener => ['(', '?', '<']
  | .redirect a doubled => if doubled then [a.char, a.char] else [a.char]

def image? : Part → Option (Pass × List Char)
  | .lexeme (.single ' ') => some (.spaces, spaceRun)
  | .lexeme (.single ';') => some (.pipes, semicolonGroup)
  | .lexeme (.pair '|') => some (.pipes, pipeGroup)
  | .redirect a doubled => some (.redirects, redirectGroup a.char doubled)
  | .lexeme (.pair '<') => some (.escapes, ['<'])
  | .lexeme (.pair '>') => some (.escapes, ['>'])
  | .lexeme (.single '/') => some (.escapes, ['\\', '/'])
  | _ => none

def after (done : List Pass) (p : Part) : List Char :=
  match p.image? with
  | some (pass, text) => if pass ∈ done then text else p.source
  | none => p.source

end Part

inductive Region where
  | plain
  | name
  deriving DecidableEq, Repr

def Region.ofNext : List Lexeme → Region
  | .single c :: _ => if Unicode.isAlphabetic c then .name else .plain
  | _ => .plain

/-- A name ends with the first `>`, also with an escaped one. -/
def Region.inName : Lexeme → Region
  | .single '>' => .plain
  | .pair '>' => .plain
  | _ => .name

def partsFrom : Region → List Lexeme → List Part
  | _, [] => []
  | .name, l :: ls => .lexeme l :: partsFrom (.inName l) ls
  | .plain, .single '(' :: .single '?' :: .single '<' :: ls =>
      .opener :: partsFrom (.ofNext ls) ls
  | .plain, .single '<' :: .single '<' :: ls => .redirect .left true :: partsFrom .plain ls
  | .plain, .single '>' :: .single '>' :: ls => .redirect .right true :: partsFrom .plain ls
  | .plain, .single '<' :: ls => .redirect .left false :: partsFrom .plain ls
  | .plain, .single '>' :: ls => .redirect .right false :: partsFrom .plain ls
  | .plain, l :: ls => .lexeme l :: partsFrom .plain ls

def parts (cs : List Char) : List Part :=
  partsFrom .plain (lexemes cs)

/-- A raw text with the parts of all passes that are on replaced. -/
def rewrite (fs : Flags) (cs : List Char) : List Char :=
  (parts cs).flatMap (Part.after (Pass.order.filter (Pass.isOn fs)))

theorem flatMap_source_partsFrom (r : Region) (ls : List Lexeme) :
    (partsFrom r ls).flatMap Part.source = ls.flatMap Lexeme.text := by
  fun_induction partsFrom r ls with
  | case1 => rfl
  | case2 l ls ih => simp [Part.source, ih]
  | case3 ls ih => simp [Part.source, Lexeme.text, ih]
  | case4 ls ih => simp [Part.source, Angle.char, Lexeme.text, ih]
  | case5 ls ih => simp [Part.source, Angle.char, Lexeme.text, ih]
  | case6 ls _ ih => simp [Part.source, Angle.char, Lexeme.text, ih]
  | case7 ls _ ih => simp [Part.source, Angle.char, Lexeme.text, ih]
  | case8 l ls _ _ _ _ _ ih => simp [Part.source, ih]

theorem flatMap_source_parts (cs : List Char) : (parts cs).flatMap Part.source = cs := by
  rw [parts, flatMap_source_partsFrom, flatMap_text_lexemes]

/-- Only the last lexeme is a lone backslash, if any is. -/
def Closed (ls : List Lexeme) : Prop :=
  ∀ l ∈ ls.dropLast, l ≠ .single '\\'

theorem forall_mem_dropLast_cons {α : Type} {P : α → Prop} {x : α} {xs : List α}
    (hx : xs ≠ [] → P x) (hxs : ∀ y ∈ xs.dropLast, P y) : ∀ y ∈ (x :: xs).dropLast, P y := by
  intro y hy
  cases xs with
  | nil => cases hy
  | cons z zs =>
      rcases List.mem_cons.1 hy with rfl | hy
      · exact hx (List.cons_ne_nil z zs)
      · exact hxs y hy

theorem closed_lexemes (cs : List Char) : Closed (lexemes cs) := by
  fun_induction lexemes cs with
  | case1 => simp [Closed]
  | case2 c => simp [Closed]
  | case3 d cs ih => exact forall_mem_dropLast_cons (fun _ => by simp) ih
  | case4 c d cs hc ih => exact forall_mem_dropLast_cons (fun _ => by simpa using hc) ih

theorem Closed.tail {l : Lexeme} {ls : List Lexeme} (h : Closed (l :: ls)) : Closed ls := by
  intro m hm
  cases ls with
  | nil => cases hm
  | cons n ls => exact h m (List.mem_cons_of_mem _ hm)

theorem Closed.head {l : Lexeme} {ls : List Lexeme} (h : Closed (l :: ls)) (hn : ls ≠ []) :
    l ≠ .single '\\' := by
  cases ls with
  | nil => contradiction
  | cons n ls => exact h l (List.mem_cons_self ..)

theorem ne_nil_of_partsFrom {r : Region} {ls : List Lexeme} (h : partsFrom r ls ≠ []) :
    ls ≠ [] := by
  rintro rfl
  exact h (by simp [partsFrom])

theorem ne_lone_of_mem_dropLast {r : Region} {ls : List Lexeme} (h : Closed ls) :
    ∀ p ∈ (partsFrom r ls).dropLast, p ≠ .lexeme (.single '\\') := by
  have hlexeme {l : Lexeme} (hl : l ≠ .single '\\') : Part.lexeme l ≠ .lexeme (.single '\\') :=
    fun he => hl (Part.lexeme.inj he)
  fun_induction partsFrom r ls with
  | case1 => simp
  | case2 l ls ih =>
      exact forall_mem_dropLast_cons (fun hn => hlexeme (h.head (ne_nil_of_partsFrom hn)))
        (ih h.tail)
  | case3 ls ih =>
      exact forall_mem_dropLast_cons (fun _ => Part.noConfusion) (ih h.tail.tail.tail)
  | case4 ls ih => exact forall_mem_dropLast_cons (fun _ => Part.noConfusion) (ih h.tail.tail)
  | case5 ls ih => exact forall_mem_dropLast_cons (fun _ => Part.noConfusion) (ih h.tail.tail)
  | case6 ls _ ih => exact forall_mem_dropLast_cons (fun _ => Part.noConfusion) (ih h.tail)
  | case7 ls _ ih => exact forall_mem_dropLast_cons (fun _ => Part.noConfusion) (ih h.tail)
  | case8 l ls _ _ _ _ _ ih =>
      exact forall_mem_dropLast_cons (fun hn => hlexeme (h.head (ne_nil_of_partsFrom hn)))
        (ih h.tail)

theorem lexemes_text (l : Lexeme) : lexemes l.text = [l] := by
  cases l <;> simp [Lexeme.text, lexemes]

def Pass.onLexeme : Pass → Lexeme → List Char
  | .spaces => Lexeme.expandSpace
  | .pipes => Lexeme.expandPipe
  | .redirects => Lexeme.text
  | .escapes => Lexeme.normalize

theorem Pass.run_eq {pass : Pass} (h : pass ≠ .redirects) (cs : List Char) :
    pass.run cs = (lexemes cs).flatMap pass.onLexeme := by
  cases pass <;> first | rfl | contradiction

def replaced : List Lexeme :=
  [.single ' ', .single ';', .pair '|', .pair '<', .pair '>', .single '/']

theorem Pass.onLexeme_eq_text {l : Lexeme} (h : l ∉ replaced) (pass : Pass) :
    pass.onLexeme l = l.text := by
  cases pass with
  | spaces =>
      change l.expandSpace = l.text
      unfold Lexeme.expandSpace
      split <;> simp_all [replaced]
  | pipes =>
      change l.expandPipe = l.text
      unfold Lexeme.expandPipe
      split <;> simp_all [replaced]
  | redirects => rfl
  | escapes =>
      change l.normalize = l.text
      unfold Lexeme.normalize
      split <;> simp_all [replaced]

namespace Part

theorem image?_lexeme {l : Lexeme} (h : l ∉ replaced) : (Part.lexeme l).image? = none := by
  unfold image?
  split <;> simp_all [replaced]

theorem image?_cases {p : Part} {pass : Pass} {text : List Char}
    (h : p.image? = some (pass, text)) :
    pass = .spaces ∧ text = spaceRun ∨
    pass = .pipes ∧ (text = semicolonGroup ∨ text = pipeGroup) ∨
    pass = .redirects ∧ (∃ (a : Angle) (doubled : Bool), text = redirectGroup a.char doubled) ∨
    pass = .escapes ∧ (text = ['<'] ∨ text = ['>'] ∨ text = ['\\', '/']) := by
  unfold image? at h
  split at h <;> cases h
  case h_4 a doubled => exact .inr (.inr (.inl ⟨rfl, a, doubled, rfl⟩))
  all_goals simp

theorem endsLone_image {p : Part} {pass : Pass} {text : List Char}
    (h : p.image? = some (pass, text)) : endsLone text = false := by
  rcases image?_cases h with
    ⟨-, rfl⟩ | ⟨-, rfl | rfl⟩ | ⟨-, a, doubled, rfl⟩ | ⟨-, rfl | rfl | rfl⟩
  case inr.inr.inl => cases a <;> cases doubled <;> rfl
  all_goals rfl

/-- No pass rewrites what an earlier one put in. -/
theorem run_image {part : Part} {p q : Pass} {text : List Char}
    (h : part.image? = some (p, text)) (hb : p.Before q) (hq : q ≠ .redirects) :
    q.run text = text := by
  rcases image?_cases h with
    ⟨rfl, rfl⟩ | ⟨rfl, rfl | rfl⟩ | ⟨rfl, a, doubled, rfl⟩ | ⟨rfl, -⟩
  · cases q <;> first | rfl | contradiction
  · cases q <;> first | rfl | contradiction
  · cases q <;> first | rfl | contradiction
  · cases q with
    | escapes => cases a <;> cases doubled <;> rfl
    | _ => contradiction
  · cases q <;> contradiction

theorem after_eq_source {done : List Pass} {p : Part}
    (h : ∀ pass text, p.image? = some (pass, text) → pass ∉ done) : p.after done = p.source := by
  unfold after
  split
  · rename_i he
    exact if_neg (h _ _ he)
  · rfl

theorem after_eq_image {done : List Pass} {p : Part} {pass : Pass} {text : List Char}
    (h : p.image? = some (pass, text)) (hp : pass ∈ done) : p.after done = text := by
  simp [after, h, hp]

theorem endsLone_after {done : List Pass} {p : Part} (h : p ≠ .lexeme (.single '\\')) :
    endsLone (p.after done) = false := by
  have hsource : endsLone p.source = false := by
    cases p with
    | lexeme l => exact endsLone_text fun hl => h (hl ▸ rfl)
    | opener => rfl
    | redirect a doubled => cases a <;> cases doubled <;> rfl
  unfold after
  split
  · rename_i hi
    split
    · exact endsLone_image hi
    · exact hsource
  · exact hsource

theorem onLexeme_eq_after (pass : Pass) (l : Lexeme) :
    pass.onLexeme l = (Part.lexeme l).after [pass] := by
  by_cases hl : l ∈ replaced
  · simp only [replaced, List.mem_cons, List.not_mem_nil, or_false] at hl
    rcases hl with rfl | rfl | rfl | rfl | rfl | rfl <;> cases pass <;> rfl
  · rw [Pass.onLexeme_eq_text hl, after_eq_source fun _ _ hi => ?_]
    · rfl
    · rw [image?_lexeme hl] at hi
      cases hi

theorem run_source {pass : Pass} (h : pass ≠ .redirects) (p : Part) :
    pass.run p.source = p.after [pass] := by
  cases p with
  | lexeme l =>
      rw [Pass.run_eq h, source, lexemes_text, List.flatMap_singleton, onLexeme_eq_after]
  | opener => cases pass <;> rfl
  | redirect a doubled =>
      cases pass <;> first | contradiction | (cases a <;> cases doubled <;> rfl)

theorem run_after {pass : Pass} (h : pass ≠ .redirects) {done : List Pass}
    (hd : ∀ q ∈ done, q.Before pass) (p : Part) :
    pass.run (p.after done) = p.after (done ++ [pass]) := by
  by_cases hi : ∃ q text, p.image? = some (q, text) ∧ q ∈ done
  · obtain ⟨q, text, hi, hq⟩ := hi
    rw [after_eq_image hi hq, after_eq_image hi (List.mem_append_left _ hq)]
    exact run_image hi (hd q hq) h
  · have hnew : ∀ q text, p.image? = some (q, text) → q ∉ done :=
      fun q text hq hm => hi ⟨q, text, hq, hm⟩
    rw [after_eq_source hnew, run_source h]
    unfold after
    split
    · rename_i q text hq
      simp [hnew q text hq]
    · rfl

end Part

theorem run_flatMap_after {pass : Pass} (h : pass ≠ .redirects) {done : List Pass}
    (hd : ∀ q ∈ done, q.Before pass) (cs : List Char) :
    pass.run ((parts cs).flatMap (Part.after done)) =
      (parts cs).flatMap (Part.after (done ++ [pass])) := by
  have hlone : ∀ p ∈ (parts cs).dropLast, endsLone (p.after done) = false := fun p hp =>
    Part.endsLone_after (ne_lone_of_mem_dropLast (closed_lexemes cs) p hp)
  rw [Pass.run_eq h, pass_flatMap hlone]
  refine List.flatMap_congr fun p _ => ?_
  rw [← Pass.run_eq h, Part.run_after h hd]

theorem expandFrom_open (cs : List Char) :
    expandFrom .none ('(' :: cs) = '(' :: expandFrom .bracket cs := by
  cases cs <;> simp [expandFrom]

theorem expandFrom_bracket {cs : List Char} (h : cs.head? ≠ some '?') :
    expandFrom .bracket cs = expandFrom .none cs := by
  cases cs with
  | nil => rfl
  | cons c cs =>
      have hc : c ≠ '?' := by simpa using h
      cases cs <;> simp [expandFrom, hc]

theorem expandFrom_question {cs : List Char} (h : cs.head? ≠ some '<') :
    expandFrom .question cs = expandFrom .none cs := by
  cases cs with
  | nil => rfl
  | cons c cs =>
      have hc : c ≠ '<' := by simpa using h
      cases cs <;> simp [expandFrom, hc]

theorem expandFrom_angle {cs : List Char}
    (h : ∀ c, cs.head? = some c → Unicode.isAlphabetic c = false) :
    expandFrom .angle cs = expandFrom .none cs := by
  cases cs with
  | nil => rfl
  | cons c cs =>
      have hc := h c rfl
      cases cs <;> simp [expandFrom, hc]

theorem expandFrom_angle_letter {c : Char} (h : Unicode.isAlphabetic c = true) (cs : List Char) :
    expandFrom .angle (c :: cs) = expandFrom .name (c :: cs) := by
  have hc : c ≠ '>' := by
    rintro rfl
    exact absurd h (by decide)
  cases cs <;> simp [expandFrom, h, hc]

theorem expandFrom_name {text : List Char} (h : '>' ∉ text) (cs : List Char) :
    expandFrom .name (text ++ cs) = text ++ expandFrom .name cs := by
  induction text with
  | nil => rfl
  | cons c text ih =>
      have hc : c ≠ '>' := fun he => h (he ▸ List.mem_cons_self ..)
      have htext := ih fun hm => h (List.mem_cons_of_mem _ hm)
      rw [List.cons_append, expandFrom, if_neg hc, htext, List.cons_append]

theorem expandFrom_name_close (cs : List Char) :
    expandFrom .name ('>' :: cs) = '>' :: expandFrom .none cs := by
  simp [expandFrom]

def Early (done : List Pass) : Prop :=
  ∀ q ∈ done, q.Before .redirects

def inserted : List (List Char) :=
  [spaceRun, semicolonGroup, pipeGroup]

theorem mem_inserted {text : List Char} :
    text ∈ inserted ↔ text = spaceRun ∨ text = semicolonGroup ∨ text = pipeGroup := by
  simp [inserted]

theorem Early.after_cases {done : List Pass} (h : Early done) (p : Part) :
    p.after done = p.source ∨ p.after done ∈ inserted := by
  by_cases hi : ∃ q text, p.image? = some (q, text) ∧ q ∈ done
  · obtain ⟨q, text, hi, hq⟩ := hi
    have hb := h q hq
    rw [Part.after_eq_image hi hq]
    rcases Part.image?_cases hi with ⟨-, rfl⟩ | ⟨-, rfl | rfl⟩ | ⟨rfl, -⟩ | ⟨rfl, -⟩
    · exact .inr (mem_inserted.2 (.inl rfl))
    · exact .inr (mem_inserted.2 (.inr (.inl rfl)))
    · exact .inr (mem_inserted.2 (.inr (.inr rfl)))
    · contradiction
    · contradiction
  · exact .inl (Part.after_eq_source fun q text hq hm => hi ⟨q, text, hq, hm⟩)

theorem Early.after_eq_source {done : List Pass} (h : Early done) {p : Part} {q : Pass}
    {text : List Char} (hi : p.image? = some (q, text)) (hq : ¬q.Before .redirects) :
    p.after done = p.source := by
  refine Part.after_eq_source fun q' text' hi' hm => hq ?_
  rw [hi] at hi'
  cases hi'
  exact h q hm

theorem head?_inserted {text : List Char} (h : text ∈ inserted) (cs : List Char) :
    (text ++ cs).head? = some '(' := by
  rcases mem_inserted.1 h with rfl | rfl | rfl <;> rfl

theorem expandFrom_inserted {text : List Char} (h : text ∈ inserted) (cs : List Char) :
    expandFrom .none (text ++ cs) = text ++ expandFrom .none cs := by
  rcases mem_inserted.1 h with rfl | rfl | rfl
  · exact expandFrom_spaceRun cs
  · exact expandFrom_semicolonGroup cs
  · exact expandFrom_pipeGroup cs

theorem close_not_mem_inserted {text : List Char} (h : text ∈ inserted) : '>' ∉ text := by
  rcases mem_inserted.1 h with rfl | rfl | rfl <;> decide

def draft (done : List Pass) (r : Region) (ls : List Lexeme) : List Char :=
  (partsFrom r ls).flatMap (Part.after done)

theorem Part.head?_source (p : Part) (cs ds : List Char) :
    (p.source ++ cs).head? = (p.source ++ ds).head? := by
  rcases p with ⟨_ | _⟩ | _ | ⟨_, _ | _⟩ <;> rfl

theorem Early.head?_draft {done : List Pass} (h : Early done) (r : Region) (ls : List Lexeme) :
    (draft done r ls).head? = some '(' ∨
      (draft done r ls).head? = (ls.flatMap Lexeme.text).head? := by
  rw [← flatMap_source_partsFrom r ls, draft]
  cases partsFrom r ls with
  | nil => exact .inr rfl
  | cons p ps =>
      rw [List.flatMap_cons, List.flatMap_cons]
      rcases h.after_cases p with hs | hi
      · rw [hs]
        exact .inr (p.head?_source _ _)
      · exact .inl (head?_inserted hi _)

theorem Early.cons_of_head? {done : List Pass} (h : Early done) {r : Region} {ls : List Lexeme}
    {c : Char} (hc : (draft done r ls).head? = some c) (ho : c ≠ '(') (hb : c ≠ '\\') :
    ∃ ls', ls = .single c :: ls' := by
  rcases h.head?_draft r ls with hi | hs
  · rw [hi] at hc
    exact absurd (Option.some.inj hc).symm ho
  · rw [hs] at hc
    rcases ls with _ | ⟨⟨d⟩ | ⟨d⟩, ls⟩
    · cases hc
    · exact absurd (Option.some.inj hc).symm hb
    · exact ⟨ls, by rw [Option.some.inj hc]⟩

theorem after_single {c : Char} (h : .single c ∉ replaced) (done : List Pass) :
    (Part.lexeme (.single c)).after done = [c] := by
  rw [Part.after_eq_source fun _ _ hi => ?_]
  · rfl
  · rw [Part.image?_lexeme h] at hi
    cases hi

theorem draft_plain_question (done : List Pass) (ls : List Lexeme) :
    draft done .plain (.single '?' :: ls) = '?' :: draft done .plain ls := by
  simp [draft, partsFrom, after_single (c := '?') (by decide)]

theorem Early.expandFrom_bracket {done : List Pass} (h : Early done) {ls : List Lexeme}
    (hn : ∀ ls', ls ≠ .single '?' :: .single '<' :: ls') :
    expandFrom .bracket (draft done .plain ls) = expandFrom .none (draft done .plain ls) := by
  by_cases hq : (draft done .plain ls).head? = some '?'
  · obtain ⟨ls, rfl⟩ := h.cons_of_head? hq (by decide) (by decide)
    have hless : (draft done .plain ls).head? ≠ some '<' := by
      intro hl
      obtain ⟨ls', rfl⟩ := h.cons_of_head? hl (by decide) (by decide)
      exact hn ls' rfl
    rw [draft_plain_question, expandFrom_single (by decide) (by decide) rfl,
      ← expandFrom_question hless]
    rfl
  · exact Fragment.expandFrom_bracket hq

theorem Region.ofNext_eq_name {ls : List Lexeme} (h : Region.ofNext ls = .name) :
    ∃ c ls', ls = .single c :: ls' ∧ Unicode.isAlphabetic c = true := by
  unfold Region.ofNext at h
  split at h
  · rename_i c ls'
    split at h
    · rename_i hc
      exact ⟨c, ls', rfl, hc⟩
    · cases h
  · cases h

theorem not_mem_replaced_of_isAlphabetic {c : Char} (h : Unicode.isAlphabetic c = true) :
    .single c ∉ replaced := by
  simp only [replaced, List.mem_cons, Lexeme.single.injEq, List.not_mem_nil, or_false, reduceCtorEq,
    false_or, not_or]
  refine ⟨?_, ?_, ?_⟩ <;> rintro rfl <;> exact absurd h (by decide)

def Region.opener : Region → Opener
  | .plain => .none
  | .name => .name

theorem Early.expandFrom_angle {done : List Pass} (h : Early done) (ls : List Lexeme) :
    expandFrom .angle (draft done (.ofNext ls) ls) =
      expandFrom (Region.ofNext ls).opener (draft done (.ofNext ls) ls) := by
  cases hr : Region.ofNext ls with
  | plain =>
      refine Fragment.expandFrom_angle fun c hc => ?_
      by_contra ha
      have ha : Unicode.isAlphabetic c = true := by simpa using ha
      have hne {d : Char} (hd : Unicode.isAlphabetic d = false) : c ≠ d := by
        rintro rfl
        exact absurd (ha.symm.trans hd) (by decide)
      obtain ⟨ls', rfl⟩ := h.cons_of_head? hc (hne (by decide)) (hne (by decide))
      simp [Region.ofNext, ha] at hr
  | name =>
      obtain ⟨c, ls', rfl, hc⟩ := Region.ofNext_eq_name hr
      have hd : draft done .name (.single c :: ls') =
          c :: draft done (.inName (.single c)) ls' := by
        simp [draft, partsFrom, after_single (not_mem_replaced_of_isAlphabetic hc)]
      rw [hd]
      exact expandFrom_angle_letter hc _

theorem Region.inName_eq_name {l : Lexeme} (hs : l ≠ .single '>') (hp : l ≠ .pair '>') :
    Region.inName l = .name := by
  unfold Region.inName
  split <;> first | rfl | contradiction

theorem Early.expandFrom_name {done : List Pass} (h : Early done) (l : Lexeme) (cs : List Char) :
    expandFrom .name ((Part.lexeme l).after done ++ cs) =
      (Part.lexeme l).after done ++ expandFrom (Region.inName l).opener cs := by
  by_cases hs : l = .single '>'
  · subst hs
    rw [after_single (by decide)]
    exact expandFrom_name_close cs
  by_cases hp : l = .pair '>'
  · subst hp
    rw [h.after_eq_source rfl (by decide)]
    exact (@Fragment.expandFrom_name ['\\'] (by decide) _).trans
      (congrArg _ (expandFrom_name_close cs))
  · rw [Region.inName_eq_name hs hp]
    refine Fragment.expandFrom_name ?_ cs
    rcases h.after_cases (.lexeme l) with hsource | hi
    · rw [hsource]
      cases l with
      | pair c => simpa [Part.source, Lexeme.text, eq_comm] using hp
      | single c => simpa [Part.source, Lexeme.text, eq_comm] using hs
    · exact close_not_mem_inserted hi

theorem Early.expandFrom_lexeme {done : List Pass} (h : Early done) {l : Lexeme}
    (hb : l ≠ .single '\\') (ho : l ≠ .single '(') (hl : l ≠ .single '<') (hr : l ≠ .single '>')
    (cs : List Char) :
    expandFrom .none ((Part.lexeme l).after done ++ cs) =
      (Part.lexeme l).after done ++ expandFrom .none cs := by
  rcases h.after_cases (.lexeme l) with hs | hi
  · rw [hs]
    cases l with
    | pair c => exact expandFrom_pair c cs
    | single c =>
        have hless : c ≠ '<' := by simpa using hl
        have hmore : c ≠ '>' := by simpa using hr
        have hc : isRedirect c = false := by simp [isRedirect, hless, hmore]
        exact expandFrom_single (by simpa using hb) (by simpa using ho) hc cs
  · exact expandFrom_inserted hi cs

theorem Part.ne_redirects_of_lexeme {l : Lexeme} {q : Pass} {text : List Char}
    (h : (Part.lexeme l).image? = some (q, text)) : q ≠ .redirects := by
  rintro rfl
  unfold Part.image? at h
  split at h <;> cases h
  contradiction

theorem after_concat_redirects_lexeme (done : List Pass) (l : Lexeme) :
    (Part.lexeme l).after (done ++ [.redirects]) = (Part.lexeme l).after done := by
  unfold Part.after
  split
  · rename_i hi
    simp [Part.ne_redirects_of_lexeme hi]
  · rfl

/-- Nothing that an earlier pass puts after a redirection doubles it. -/
theorem Early.expandFrom_redirect {done : List Pass} (h : Early done) (a : Angle) {doubled : Bool}
    {ls : List Lexeme} (hn : doubled = false → ∀ ls', ls ≠ .single a.char :: ls') :
    expandFrom .none ((Part.redirect a doubled).after done ++ draft done .plain ls) =
      (Part.redirect a doubled).after (done ++ [.redirects]) ++
        expandFrom .none (draft done .plain ls) := by
  have ha : isRedirect a.char = true := by cases a <;> rfl
  rw [h.after_eq_source rfl (by decide), Part.after_eq_image rfl (by simp)]
  cases doubled with
  | true => exact expandFrom_doubled ha _
  | false =>
      refine Fragment.expandFrom_redirect ha fun hl => ?_
      obtain ⟨ls', rfl⟩ := h.cons_of_head? hl (by cases a <;> decide) (by cases a <;> decide)
      exact hn rfl ls' rfl

theorem Early.expandFrom_draft {done : List Pass} (h : Early done) {r : Region} {ls : List Lexeme}
    (hc : Closed ls) :
    expandFrom r.opener (draft done r ls) = draft (done ++ [.redirects]) r ls := by
  unfold draft
  fun_induction partsFrom r ls with
  | case1 => cases ‹Region› <;> rfl
  | case2 l ls ih =>
      rw [List.flatMap_cons, List.flatMap_cons, after_concat_redirects_lexeme, ← ih hc.tail]
      exact h.expandFrom_name l _
  | case3 ls ih =>
      have hls := ih hc.tail.tail.tail
      rw [List.flatMap_cons, List.flatMap_cons, ← hls]
      exact congrArg (['(', '?', '<'] ++ ·) (h.expandFrom_angle ls)
  | case4 ls ih =>
      rw [List.flatMap_cons, List.flatMap_cons, ← ih hc.tail.tail]
      exact h.expandFrom_redirect .left (by simp)
  | case5 ls ih =>
      rw [List.flatMap_cons, List.flatMap_cons, ← ih hc.tail.tail]
      exact h.expandFrom_redirect .right (by simp)
  | case6 ls hn ih =>
      rw [List.flatMap_cons, List.flatMap_cons, ← ih hc.tail]
      exact h.expandFrom_redirect .left fun _ => hn
  | case7 ls hn ih =>
      rw [List.flatMap_cons, List.flatMap_cons, ← ih hc.tail]
      exact h.expandFrom_redirect .right fun _ => hn
  | case8 l ls ho _ _ hl hr ih =>
      rw [List.flatMap_cons, List.flatMap_cons, after_concat_redirects_lexeme, ← ih hc.tail]
      by_cases hb : l = .single '\\'
      · -- nothing follows that the backslash could be read with
        have hls : ls = [] := by
          by_contra hn
          exact hc.head hn hb
        subst hb hls
        rw [after_single (by decide)]
        rfl
      by_cases hp : l = .single '('
      · subst hp
        rw [after_single (by decide)]
        exact (expandFrom_open _).trans
          (congrArg _ (h.expandFrom_bracket fun ls' he => ho ls' rfl he))
      · exact h.expandFrom_lexeme hb hp hl hr _

theorem run_parts {pass : Pass} {done : List Pass} (hd : ∀ q ∈ done, q.Before pass)
    (cs : List Char) :
    pass.run ((parts cs).flatMap (Part.after done)) =
      (parts cs).flatMap (Part.after (done ++ [pass])) := by
  by_cases h : pass = .redirects
  · subst h
    exact Early.expandFrom_draft (r := .plain) hd (closed_lexemes cs)
  · exact run_flatMap_after h hd cs

theorem runAll_eq (fs : Flags) {passes : List Pass} (h : passes.Pairwise Pass.Before)
    (cs : List Char) :
    Pass.runAll fs passes cs =
      (parts cs).flatMap (Part.after (passes.filter (Pass.isOn fs))) := by
  induction passes using List.reverseRecOn with
  | nil =>
      have hsource : Part.after [] = Part.source :=
        funext fun p => Part.after_eq_source fun _ _ _ => List.not_mem_nil
      rw [List.filter_nil, hsource, flatMap_source_parts]
      rfl
  | append_singleton passes pass ih =>
      obtain ⟨hp, -, hb⟩ := List.pairwise_append.1 h
      have hd : ∀ q ∈ passes.filter (Pass.isOn fs), q.Before pass := fun q hq =>
        hb q (List.mem_of_mem_filter hq) pass (List.mem_singleton_self pass)
      rw [Pass.runAll_concat, ih hp, List.filter_append, passIf]
      by_cases hon : pass.isOn fs = true
      · rw [if_pos hon, List.filter_singleton, hon]
        exact run_parts hd cs
      · rw [if_neg hon, List.filter_singleton]
        simp [hon]

/-- A pattern is its fragment with the parts replaced that its flags ask for. After each of the
passes the text is the raw one with the parts of the passes so far replaced, and nothing else. -/
theorem synthesize_eq_rewrite (fragment : String) (fs : Flags) :
    synthesize fragment fs =
      ⟨.ofList (['^', '(', '?', ':'] ++ rewrite fs fragment.toList ++ [')', '$']),
        fs.ignoreCase, fs.dotAll⟩ ∧
    (parts fragment.toList).flatMap Part.source = fragment.toList ∧
    ∀ n, Pass.runAll fs (Pass.order.take n) fragment.toList =
      (parts fragment.toList).flatMap
        (Part.after ((Pass.order.take n).filter (Pass.isOn fs))) := by
  have hbody : body fs fragment.toList = rewrite fs fragment.toList := by
    rw [← Pass.runAll_order, runAll_eq fs Pass.order_pairwise, rewrite]
  refine ⟨?_, flatMap_source_parts _, fun n => ?_⟩
  · rw [synthesize, hbody]
    rfl
  · exact runAll_eq fs (Pass.order_pairwise.sublist (List.take_sublist ..)) _

example : rewrite { pipeSpace := true, redirectSpace := true } "(?<n/;\\>>>\\<\\".toList =
    ['(', '?', '<', 'n', '\\', '/'] ++ semicolonGroup ++ ['>'] ++ redirectGroup '>' true ++
      ['<', '\\'] := by
  decide

end AnswerGrading.Fragment
