import AnswerGrading.Engine
import AnswerGrading.Proofs.SinglePass
import AnswerGrading.Specification.Diagnostic

/-!
The group around a fragment. Brackets of a pattern are counted from left to right, those escaped or
inside a class left out. Rewriting a fragment never changes the count, so the bracket that is added
behind the fragment closes the one before it exactly when the fragment's own brackets are balanced.
-/

namespace AnswerGrading.Fragment

/-- Where a reading stands: outside of a class, behind the bracket that opens one, behind its `^`,
or among its members, with so many brackets open inside it. -/
inductive Place where
  | outside
  | opened
  | negated
  | inside (nested : Nat)
  deriving DecidableEq, Repr

/-- A `]` at the start of a class is a member of it. -/
def Place.next : Place → Char → Place
  | .outside, c => if c = '[' then .opened else .outside
  | .opened, c => if c = '^' then .negated else .inside (if c = '[' then 1 else 0)
  | .negated, c => .inside (if c = '[' then 1 else 0)
  | .inside n, c =>
      if c = '[' then .inside (n + 1)
      else if c = ']' then (if n = 0 then .outside else .inside (n - 1))
      else .inside n

structure Scan where
  groups : Nat := 0
  place : Place := .outside
  escaped : Bool := false
  deriving DecidableEq, Repr

namespace Scan

def step (s : Scan) (c : Char) : Option Scan :=
  if s.escaped then some { s with escaped := false }
  else if c = '\\' then some { s with place := s.place.next c, escaped := true }
  else if s.place = .outside ∧ c = '(' then some { s with groups := s.groups + 1 }
  else if s.place = .outside ∧ c = ')' then
    if s.groups = 0 then none else some { s with groups := s.groups - 1 }
  else some { s with place := s.place.next c }

def run (s : Scan) (cs : List Char) : Option Scan :=
  cs.foldlM step s

def afterGroup? (s : Scan) : List Char → Option (List Char)
  | [] => none
  | c :: cs =>
      match s.step c with
      | some s => s.afterGroup? cs
      | none => some cs

theorem run_append (s : Scan) (cs ds : List Char) :
    s.run (cs ++ ds) = (s.run cs).bind fun s => s.run ds :=
  List.foldlM_append ..

theorem run_cons (s : Scan) (c : Char) (cs : List Char) :
    s.run (c :: cs) = (s.step c).bind fun s => s.run cs :=
  List.foldlM_cons ..

theorem afterGroup?_append {s t : Scan} {cs : List Char} (h : s.run cs = some t)
    (ds : List Char) : s.afterGroup? (cs ++ ds) = t.afterGroup? ds := by
  induction cs generalizing s with
  | nil =>
      cases h
      rfl
  | cons c cs ih =>
      rw [run_cons] at h
      obtain ⟨u, hu, ht⟩ := Option.bind_eq_some_iff.1 h
      rw [List.cons_append, afterGroup?, hu]
      exact ih ht

theorem afterGroup?_append_of_none {s : Scan} {cs : List Char} (h : s.run cs = none)
    (ds : List Char) : ∃ rest, s.afterGroup? (cs ++ ds) = some (rest ++ ds) := by
  induction cs generalizing s with
  | nil => cases h
  | cons c cs ih =>
      rw [run_cons] at h
      rw [List.cons_append, afterGroup?]
      cases hu : s.step c with
      | none => exact ⟨cs, rfl⟩
      | some u =>
          rw [hu] at h
          exact ih h

end Scan

/-- Each bracket that closes a group has one before it that opens it and the other way round, no
class is open at the end, and no escape is left unfinished. -/
def Balanced (cs : List Char) : Prop :=
  Scan.run {} cs = some {}

instance (cs : List Char) : Decidable (Balanced cs) :=
  inferInstanceAs (Decidable (Scan.run {} cs = some {}))

def behindGroup? : List Char → Option (List Char)
  | '^' :: '(' :: '?' :: ':' :: cs => Scan.afterGroup? {} cs
  | _ => none

theorem behindGroup?_anchored (cs : List Char) :
    behindGroup? (anchored cs) = Scan.afterGroup? {} (cs ++ [')', '$']) := by
  rfl

theorem Scan.afterGroup?_end (s : Scan) :
    s.afterGroup? [')', '$'] = if s = {} then some ['$'] else none := by
  obtain ⟨groups, place, escaped⟩ := s
  cases escaped with
  | true => cases place <;> simp [afterGroup?, step, Place.next]
  | false =>
      cases place with
      | outside => cases groups <;> simp [afterGroup?, step, Place.next]
      | _ => simp [afterGroup?, step, Place.next]

namespace Scan

theorem step_escaped {s t : Scan} {c : Char} (hc : s.escaped = true ∨ c ≠ '\\')
    (h : s.step c = some t) : t.escaped = false := by
  unfold step at h
  by_cases hs : s.escaped = true
  · rw [if_pos hs] at h
    cases h
    rfl
  · rw [if_neg hs, if_neg (hc.resolve_left hs)] at h
    have hs : s.escaped = false := by simpa using hs
    split at h
    · cases h
      exact hs
    · split at h
      · split at h
        · cases h
        · cases h
          exact hs
      · cases h
        exact hs

theorem run_escaped {cs : List Char} (hb : '\\' ∉ cs) {s t : Scan} (hs : s.escaped = false)
    (h : s.run cs = some t) : t.escaped = false := by
  induction cs generalizing s with
  | nil =>
      cases h
      exact hs
  | cons c cs ih =>
      rw [List.mem_cons, not_or] at hb
      rw [run_cons] at h
      obtain ⟨u, hu, ht⟩ := Option.bind_eq_some_iff.1 h
      exact ih hb.2 (step_escaped (.inr (Ne.symm hb.1)) hu) ht

theorem run_pair {s : Scan} (hs : s.escaped = false) (c : Char) :
    s.run ['\\', c] = some { s with place := s.place.next '\\' } := by
  simp [step, hs, run]

theorem run_source_escaped {p : Part} (hp : p ≠ .lexeme (.single '\\')) {s t : Scan}
    (hs : s.escaped = false) (h : s.run p.source = some t) : t.escaped = false := by
  cases p with
  | lexeme l =>
      cases l with
      | pair c =>
          rw [Part.source, Lexeme.text, run_pair hs] at h
          cases h
          exact hs
      | single c =>
          have hc : c ≠ '\\' := fun he => hp (he ▸ rfl)
          exact run_escaped (by simpa [Part.source, Lexeme.text] using Ne.symm hc) hs h
  | opener => exact run_escaped (by decide) hs h
  | redirect a doubled =>
      exact run_escaped (by cases a <;> cases doubled <;> decide) hs h

theorem run_image {p : Part} {pass : Pass} {text : List Char}
    (h : p.image? = some (pass, text)) {s : Scan} (hs : s.escaped = false) :
    s.run text = s.run p.source := by
  obtain ⟨groups, place, escaped⟩ := s
  cases hs
  unfold Part.image? at h
  split at h
  case h_4 a doubled => cases h; cases a <;> cases doubled <;> cases place <;> rfl
  case h_8 => cases h
  all_goals cases h; cases place <;> rfl

theorem run_after {p : Part} {done : List Pass} {s : Scan} (hs : s.escaped = false) :
    s.run (p.after done) = s.run p.source := by
  unfold Part.after
  split
  · rename_i hi
    split
    · exact run_image hi hs
    · rfl
  · rfl

theorem run_flatMap_after (done : List Pass) {ps : List Part}
    (h : ∀ p ∈ ps.dropLast, p ≠ .lexeme (.single '\\')) {s : Scan} (hs : s.escaped = false) :
    s.run (ps.flatMap (Part.after done)) = s.run (ps.flatMap Part.source) := by
  induction ps generalizing s with
  | nil => rfl
  | cons p ps ih =>
      rw [List.flatMap_cons, List.flatMap_cons, run_append, run_append, run_after hs]
      cases hrun : s.run p.source with
      | none => rfl
      | some t =>
          cases ps with
          | nil => rfl
          | cons q ps =>
              have hp : p ≠ .lexeme (.single '\\') := h p (List.mem_cons_self ..)
              exact ih (fun r hr => h r (List.mem_cons_of_mem p hr)) (run_source_escaped hp hs hrun)

/-- No pass moves a bracket in or out of a class or behind a backslash. -/
theorem run_body (fs : Flags) (cs : List Char) : run {} (body fs cs) = run {} cs := by
  rw [← Pass.runAll_order, runAll_eq fs Pass.order_pairwise]
  conv_rhs => rw [← flatMap_source_parts cs]
  exact run_flatMap_after _ (ne_lone_of_mem_dropLast (closed_lexemes cs)) rfl

end Scan

/-- Whatever the flags, the brackets that are put around a fragment belong together exactly when the
fragment is balanced. Otherwise the group ends inside the fragment, at a bracket that closes nothing
there, or it takes in the bracket behind the fragment and has no end. -/
theorem synthesize_encloses_iff (fragment : String) (fs : Flags) :
    let behind := behindGroup? (synthesize fragment fs).text.toList
    (behind = some ['$'] ↔ Balanced fragment.toList) ∧
    ((∃ rest, behind = some (rest ++ [')', '$'])) ↔ Scan.run {} fragment.toList = none) ∧
    (behind = none ↔ ∃ s, Scan.run {} fragment.toList = some s ∧ s ≠ {}) := by
  intro behind
  have hlong (rest : List Char) : rest ++ [')', '$'] ≠ ['$'] := by
    intro he
    simpa using congrArg List.length he
  have hbehind : behind = Scan.afterGroup? {} (body fs fragment.toList ++ [')', '$']) := by
    rw [← behindGroup?_anchored, ← toList_synthesize]
  cases hrun : Scan.run {} fragment.toList with
  | none =>
      obtain ⟨rest, hrest⟩ := Scan.afterGroup?_append_of_none
        ((Scan.run_body fs fragment.toList).trans hrun) [')', '$']
      rw [hrest] at hbehind
      refine ⟨?_, ?_, ?_⟩
      · simp [hbehind, hlong, Balanced, hrun]
      · simp [hbehind]
      · simp [hbehind]
  | some s =>
      have hs := Scan.afterGroup?_append ((Scan.run_body fs fragment.toList).trans hrun) [')', '$']
      rw [hs, Scan.afterGroup?_end] at hbehind
      refine ⟨?_, ?_, ?_⟩
      · simp [hbehind, Balanced, hrun]
      · simp [hbehind, (hlong _).symm]
      · simp [hbehind]

/-- Nothing that is checked in a specification keeps an author from closing the group early or from
escaping the bracket that should close it. -/
theorem synthesize_stray_bracket :
    Specification.diagnose .question "[[a)|(b]]//" = [] ∧
    (Specification.parse "[[a)|(b]]//").fragments = ["a)|(b"] ∧
    behindGroup? (synthesize "a)|(b" {}).text.toList = some ['|', '(', 'b', ')', '$'] ∧
    (synthesize "a)|(b" {}).matches "axyz" = .ok true ∧
    Specification.diagnose .question "[[a\\]]//" = [] ∧
    (Specification.parse "[[a\\]]//").fragments = ["a\\"] ∧
    behindGroup? (synthesize "a\\" {}).text.toList = none := by
  refine ⟨?_, ?_, ?_, ?_, ?_, ?_, ?_⟩
  · decide +kernel
  · decide
  · rw [toList_synthesize]
    decide
  · decide +kernel
  · decide +kernel
  · decide
  · rw [toList_synthesize]
    decide

end AnswerGrading.Fragment
