import AnswerGrading.Proofs.EngineSimulation
import Mathlib.Data.Finset.Card
import Mathlib.Data.List.Induction

namespace AnswerGrading

variable {σ : Type}

def Engine.after (e : Engine σ) (s : σ) (calls : List (Pattern × String)) : σ :=
  calls.foldl (fun s call => (e.ask s call.1 call.2).2) s

theorem Engine.after_concat (e : Engine σ) (s : σ) (calls : List (Pattern × String))
    (call : Pattern × String) :
    e.after s (calls ++ [call]) = (e.ask (e.after s calls) call.1 call.2).2 := by
  simp [Engine.after, List.foldl_append]

namespace Cache

theorem mem_keys_iff (c : Cache) (p : Pattern) :
    p ∈ c.entries.map Prod.fst ↔ ∃ program, c.find? p = some program := by
  obtain ⟨entries⟩ := c
  simp only [find?]
  induction entries with
  | nil => simp
  | cons entry entries ih =>
      obtain ⟨q, program⟩ := entry
      rw [List.map_cons, List.mem_cons, ih, List.lookup_cons]
      by_cases hq : p = q
      · simp [hq]
      · have hb : (p == q) = false := by simpa using hq
        simp [hq, hb]

theorem ask_snd_cases (c : Cache) (p : Pattern) (subject : String) :
    ((c.ask p subject).2 = c ∧ ((∃ program, c.find? p = some program) ∨
      ∃ d, p.compile = .error d)) ∨
    ∃ program, c.find? p = none ∧ p.compile = .ok program ∧
      (c.ask p subject).2 = c.insert p program := by
  unfold ask
  cases hf : c.find? p with
  | some program => exact .inl ⟨rfl, .inl ⟨program, rfl⟩⟩
  | none =>
      cases hc : p.compile with
      | error d => exact .inl ⟨rfl, .inr ⟨d, rfl⟩⟩
      | ok program => exact .inr ⟨program, rfl, rfl, rfl⟩

theorem find?_insert (c : Cache) (p q : Pattern) (program : Regex.Program) :
    (c.insert p program).find? q = if q = p then some program else c.find? q := by
  rw [find?, insert, List.lookup_cons]
  by_cases hq : q = p
  · simp [hq]
  · have hb : (q == p) = false := by simpa using hq
    simp [hq, hb, find?]

/-- Each pattern of those called that compiles, with its program and once. -/
structure Holds (c : Cache) (called : List Pattern) : Prop where
  find?_eq : ∀ p, c.find? p = if p ∈ called then p.compile.toOption else none
  nodup : (c.entries.map Prod.fst).Nodup

theorem holds_empty : Holds {} [] :=
  ⟨fun _ => rfl, List.nodup_nil⟩

theorem compile_of_toOption {p : Pattern} {program : Regex.Program}
    (h : p.compile.toOption = some program) : p.compile = .ok program := by
  cases hc : p.compile with
  | error d =>
      rw [hc] at h
      cases h
  | ok found =>
      rw [hc] at h
      cases h
      rfl

theorem Holds.faithful {c : Cache} {called : List Pattern} (h : c.Holds called) : c.Faithful := by
  intro p program hp
  rw [h.find?_eq] at hp
  split at hp
  · exact compile_of_toOption hp
  · cases hp

theorem Holds.ask {c : Cache} {called : List Pattern} (h : c.Holds called) (p : Pattern)
    (subject : String) : (c.ask p subject).2.Holds (called ++ [p]) := by
  rcases c.ask_snd_cases p subject with ⟨he, hknown⟩ | ⟨program, hf, hc, he⟩
  · rw [he]
    refine ⟨fun q => ?_, h.nodup⟩
    by_cases hq : q = p
    · subst hq
      rw [if_pos (by simp)]
      rcases hknown with ⟨program, hp⟩ | ⟨d, hd⟩
      · rw [hp, h.faithful q program hp]
        rfl
      · rw [h.find?_eq, hd]
        exact ite_self _
    · rw [h.find?_eq]
      simp [hq]
  · rw [he]
    refine ⟨fun q => ?_, ?_⟩
    · rw [find?_insert]
      by_cases hq : q = p
      · subst hq
        rw [if_pos rfl, if_pos (by simp), hc]
        rfl
      · rw [if_neg hq, h.find?_eq]
        simp [hq]
    · refine List.nodup_cons.2 ⟨fun hm => ?_, h.nodup⟩
      obtain ⟨found, hp⟩ := (c.mem_keys_iff p).1 hm
      rw [hf] at hp
      cases hp

theorem holds_after (calls : List (Pattern × String)) :
    (Engine.regex.after {} calls).Holds (calls.map Prod.fst) := by
  induction calls using List.reverseRecOn with
  | nil => exact holds_empty
  | append_singleton calls call ih =>
      rw [Engine.after_concat, List.map_append]
      exact ih.ask call.1 call.2

theorem Holds.size_eq {c : Cache} {called : List Pattern} (h : c.Holds called) :
    c.size = (called.toFinset.filter fun p => p.compile.isOk = true).card := by
  have hkeys : (c.entries.map Prod.fst).toFinset =
      called.toFinset.filter fun p => p.compile.isOk = true := by
    ext p
    rw [List.mem_toFinset, mem_keys_iff, h.find?_eq, Finset.mem_filter, List.mem_toFinset]
    constructor
    · rintro ⟨program, hp⟩
      split at hp
      · rename_i hm
        rw [compile_of_toOption hp]
        exact ⟨hm, rfl⟩
      · cases hp
    · rintro ⟨hm, hok⟩
      rw [if_pos hm]
      cases hc : p.compile with
      | error d =>
          rw [hc] at hok
          cases hok
      | ok program => exact ⟨program, rfl⟩
  rw [← hkeys, List.toFinset_card_of_nodup h.nodup, List.length_map, size]

theorem entries_suffix_ask (c : Cache) (p : Pattern) (subject : String) :
    c.entries <:+ (c.ask p subject).2.entries := by
  rcases c.ask_snd_cases p subject with ⟨he, -⟩ | ⟨program, -, -, he⟩
  · rw [he]
  · rw [he]
    exact List.suffix_cons ..

end Cache

inductive Request where
  | grade (answer : String)
  | detailed (answer : String)
  | response (answer : Option String)

def Request.serve (e : Engine σ) (rs : List Rule) (s : σ) : Request → σ
  | .grade answer => (AnswerGrading.grade e s rs answer).2
  | .detailed answer => (gradeDetailed e s rs answer).2
  | .response answer => (gradeResponse e s rs answer).2.2

def serveAll (e : Engine σ) (rs : List Rule) (s : σ) (requests : List Request) : σ :=
  requests.foldl (Request.serve e rs) s

def BothFaithful (c d : Cache) : Prop :=
  c.Faithful ∧ d.Faithful

theorem regex_simulates : Simulates BothFaithful Engine.regex Engine.regex := by
  rintro c d ⟨hc, hd⟩ p subject
  refine ⟨p.matches subject, _, _, ?_, ?_, Cache.faithful_ask hc p subject,
    Cache.faithful_ask hd p subject⟩
  · exact Prod.ext (Cache.ask_fst hc p subject) rfl
  · exact Prod.ext (Cache.ask_fst hd p subject) rfl

theorem faithful_serve {c : Cache} (hc : c.Faithful) (rs : List Rule) (request : Request) :
    (request.serve Engine.regex rs c).Faithful := by
  cases request with
  | grade answer => exact (regex_simulates.grade ⟨hc, hc⟩ rs answer).snd.1
  | detailed answer => exact (regex_simulates.gradeDetailed ⟨hc, hc⟩ rs answer).snd.1
  | response answer =>
      obtain ⟨_, _, c', _, hr, -, hc', -⟩ := regex_simulates.gradeResponse ⟨hc, hc⟩ rs answer
      rw [Request.serve, hr]
      exact hc'

theorem faithful_serveAll {c : Cache} (hc : c.Faithful) (rs : List Rule)
    (requests : List Request) : (serveAll Engine.regex rs c requests).Faithful := by
  induction requests generalizing c with
  | nil => exact hc
  | cons request requests ih => exact ih (faithful_serve hc rs request)

/-- Whatever was asked before, the regex engine answers as a new one does, and it holds each pattern
called so far that compiles, once and for good; so no earlier answer changes a later grade. -/
theorem regex_history (calls : List (Pattern × String)) (p : Pattern) (subject : String)
    (rs : List Rule) (requests : List Request) (answer : String) (response : Option String) :
    let c := Engine.regex.after {} calls
    let d := serveAll Engine.regex rs {} requests
    (Engine.regex.ask c p subject).1 = (Engine.regex.ask {} p subject).1 ∧
    c.size = ((calls.map Prod.fst).toFinset.filter fun q => q.compile.isOk = true).card ∧
    (∀ q, c.find? q = if q ∈ calls.map Prod.fst then q.compile.toOption else none) ∧
    c.entries <:+ (Engine.regex.ask c p subject).2.entries ∧
    (grade Engine.regex d rs answer).1 = (grade Engine.regex {} rs answer).1 ∧
    (gradeDetailed Engine.regex d rs answer).1 = (gradeDetailed Engine.regex {} rs answer).1 ∧
    (gradeResponse Engine.regex d rs response).1 = (gradeResponse Engine.regex {} rs response).1 ∧
    (gradeResponse Engine.regex d rs response).2.1 =
      (gradeResponse Engine.regex {} rs response).2.1 := by
  intro c d
  have hc := Cache.holds_after calls
  have hd : BothFaithful d {} :=
    ⟨faithful_serveAll Cache.faithful_empty rs requests, Cache.faithful_empty⟩
  obtain ⟨_, _, _, _, hr, hr', -⟩ := regex_simulates.gradeResponse hd rs response
  refine ⟨?_, hc.size_eq, hc.find?_eq, Cache.entries_suffix_ask c p subject,
    (regex_simulates.grade hd rs answer).fst_eq,
    (regex_simulates.gradeDetailed hd rs answer).fst_eq, ?_, ?_⟩
  · rw [Engine.ask_regex hc.faithful, Engine.ask_regex Cache.faithful_empty]
  · rw [hr, hr']
  · rw [hr, hr']

end AnswerGrading
