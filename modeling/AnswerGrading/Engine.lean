import AnswerGrading.Pattern

/-!
Engines answer whether a pattern matches a subject, and may change their state as they do. The
regex engine keeps the patterns it has compiled; another one refuses every question.
-/

namespace AnswerGrading

structure PatternError where
  pattern : String
  message : String
  deriving DecidableEq, Repr

def PatternError.text (e : PatternError) : String :=
  "could not compile pattern `" ++ e.pattern ++ "`: " ++ e.message

structure Engine (σ : Type) where
  ask : σ → Pattern → String → Except PatternError Bool × σ

def Pattern.failure (p : Pattern) (message : String) : PatternError :=
  ⟨p.render, message⟩

def Pattern.defective (p : Pattern) (d : Regex.Defect) : PatternError :=
  p.failure d.message

def Pattern.answer (p : Pattern) (program : Regex.Program) (subject : String) :
    Except PatternError Bool :=
  match program.occurs? subject.toList with
  | some matched => .ok matched
  | none => .error (p.failure "the search for a match was given up")

def Pattern.matches (p : Pattern) (subject : String) : Except PatternError Bool :=
  match p.compile with
  | .ok program => p.answer program subject
  | .error d => .error (p.defective d)

structure Cache where
  entries : List (Pattern × Regex.Program) := []

namespace Cache

def find? (c : Cache) (p : Pattern) : Option Regex.Program :=
  c.entries.lookup p

def insert (c : Cache) (p : Pattern) (program : Regex.Program) : Cache :=
  ⟨(p, program) :: c.entries⟩

def size (c : Cache) : Nat :=
  c.entries.length

/-- Only a pattern that compiles enters the cache, also when the search for a match is given up. -/
def ask (c : Cache) (p : Pattern) (subject : String) : Except PatternError Bool × Cache :=
  match c.find? p with
  | some program => (p.answer program subject, c)
  | none =>
      match p.compile with
      | .ok program => (p.answer program subject, c.insert p program)
      | .error d => (.error (p.defective d), c)

def Faithful (c : Cache) : Prop :=
  ∀ p program, c.find? p = some program → p.compile = .ok program

theorem faithful_empty : Faithful {} := by
  intro p program h
  cases h

theorem ask_fst {c : Cache} (h : c.Faithful) (p : Pattern) (subject : String) :
    (c.ask p subject).1 = p.matches subject := by
  unfold ask Pattern.matches
  cases hf : c.find? p with
  | some program => simp [h p program hf]
  | none => cases p.compile <;> rfl

theorem faithful_ask {c : Cache} (h : c.Faithful) (p : Pattern) (subject : String) :
    (c.ask p subject).2.Faithful := by
  unfold ask
  cases hf : c.find? p with
  | some program => exact h
  | none =>
      cases hc : p.compile with
      | error d => exact h
      | ok program =>
          intro q found hq
          simp only [find?, insert, List.lookup_cons] at hq
          split at hq
          · rename_i he
            cases eq_of_beq he
            cases hq
            exact hc
          · exact h q found hq

end Cache

def Engine.regex : Engine Cache :=
  ⟨Cache.ask⟩

theorem Engine.ask_regex {c : Cache} (h : c.Faithful) (p : Pattern) (subject : String) :
    (Engine.regex.ask c p subject).1 = p.matches subject :=
  Cache.ask_fst h p subject

def Engine.refusing : Engine Unit :=
  ⟨fun s p _ => (.error (p.failure "unsupported"), s)⟩

structure Call where
  pattern : Pattern
  subject : String
  answer : Except PatternError Bool

/-- An engine that also keeps the calls made to it, the latest first. -/
def Engine.recorded {σ : Type} (e : Engine σ) : Engine (σ × List Call) :=
  ⟨fun (s, calls) p subject =>
    let (answer, s) := e.ask s p subject
    (answer, s, ⟨p, subject, answer⟩ :: calls)⟩

end AnswerGrading
