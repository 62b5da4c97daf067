import AnswerGrading.Regex.Machine
import AnswerGrading.Regex.Reach
import Mathlib.Tactic.Ring

/-!
What a machine finds. It visits the pairs of state and position that its instructions lead to, each
fork once, and has enough fuel to visit them all: it stops if some way through its instructions
does.
-/

namespace AnswerGrading.Regex.Machine

inductive Step (code : Array Instruction) (text : Array Char) : Nat × Nat → Nat × Nat → Prop
  | char {q i next : Nat} {s : CharSet} (h : code[q]? = some (.char s next))
      (hs : text[i]?.any s.mem = true) : Step code text (q, i) (next, i + 1)
  | anchor {q i next : Nat} {a : Anchor} (h : code[q]? = some (.anchor a next))
      (ha : a.holds text i = true) : Step code text (q, i) (next, i)
  | first {q i first second : Nat} (h : code[q]? = some (.fork first second)) :
      Step code text (q, i) (first, i)
  | second {q i first second : Nat} (h : code[q]? = some (.fork first second)) :
      Step code text (q, i) (second, i)

/-- Some way of `n` instructions leads to a stop at position `j`. -/
inductive Stops (code : Array Instruction) (text : Array Char) (j : Nat) : Nat → Nat × Nat → Prop
  | stop {q : Nat} (h : code[q]? = some .stop) : Stops code text j 0 (q, j)
  | step {n : Nat} {c c' : Nat × Nat} (h : Step code text c c') :
      Stops code text j n c' → Stops code text j (n + 1) c

structure Directed (code : Array Instruction) : Prop where
  char : ∀ {q next : Nat} {s : CharSet}, code[q]? = some (.char s next) → next < q
  anchor : ∀ {q next : Nat} {a : Anchor}, code[q]? = some (.anchor a next) → next < q
  fork : ∀ {q first second : Nat}, code[q]? = some (.fork first second) →
    first < code.size ∧ second < code.size

def mark (code : Array Instruction) (c : Nat × Nat) : Nat :=
  c.2 * code.size + c.1

/-- The pairs that a visit leads to, and the forks taken after it. -/
inductive Visit (code : Array Instruction) (text : Array Char) (seen : Nat) :
    Nat × Nat → Nat → List (Nat × Nat) → Prop
  | dead {c : Nat × Nat} (hstop : code[c.1]? ≠ some .stop) (h : ∀ c', ¬Step code text c c') :
      Visit code text seen c seen []
  | move {c c' : Nat × Nat} (hfork : ∀ first second, code[c.1]? ≠ some (.fork first second))
      (h : Step code text c c') (honly : ∀ c'', Step code text c c'' → c'' = c') :
      Visit code text seen c seen [c']
  | old {q i first second : Nat} (h : code[q]? = some (.fork first second))
      (hs : seen.testBit (mark code (q, i)) = true) : Visit code text seen (q, i) seen []
  | fresh {q i first second : Nat} (h : code[q]? = some (.fork first second))
      (hs : seen.testBit (mark code (q, i)) = false) :
      Visit code text seen (q, i) (seen ||| 1 <<< mark code (q, i)) [(first, i), (second, i)]

section Visits

variable {code : Array Instruction} {text : Array Char} {seen seen' : Nat} {c : Nat × Nat}
  {cs pending : List (Nat × Nat)}

theorem run_cons (fuel : Nat) (c : Nat × Nat) :
    (code[c.1]? = some .stop ∧ run code text (fuel + 1) seen (c :: pending) = some c.2) ∨
    ∃ seen' cs, Visit code text seen c seen' cs ∧
      run code text (fuel + 1) seen (c :: pending) = run code text fuel seen' (cs ++ pending) := by
  obtain ⟨q, i⟩ := c
  rw [run]
  split
  · rename_i hq
    refine .inr ⟨seen, [], .dead (by simp [hq]) ?_, rfl⟩
    rintro c' (h | h | h | h) <;> simp [hq] at h
  · rename_i hq
    exact .inl ⟨hq, rfl⟩
  · rename_i s next hq
    split
    · rename_i hs
      refine .inr ⟨seen, [(next, i + 1)], .move (by simp [hq]) (.char hq hs) ?_, rfl⟩
      rintro c' (h | h | h | h) <;> simp_all
    · rename_i hs
      refine .inr ⟨seen, [], .dead (by simp [hq]) ?_, rfl⟩
      rintro c' (h | h | h | h) <;> simp_all
  · rename_i a next hq
    split
    · rename_i ha
      refine .inr ⟨seen, [(next, i)], .move (by simp [hq]) (.anchor hq ha) ?_, rfl⟩
      rintro c' (h | h | h | h) <;> simp_all
    · rename_i ha
      refine .inr ⟨seen, [], .dead (by simp [hq]) ?_, rfl⟩
      rintro c' (h | h | h | h) <;> simp_all
  · rename_i first second hq
    dsimp only
    split
    · rename_i hs
      exact .inr ⟨seen, [], .old hq hs, rfl⟩
    · rename_i hs
      exact .inr ⟨_, _, .fresh hq (Bool.eq_false_iff.2 hs), rfl⟩

theorem Visit.step (h : Visit code text seen c seen' cs) : ∀ c' ∈ cs, Step code text c c' := by
  cases h with
  | dead => exact nofun
  | move _ h _ => simpa using h
  | old => exact nofun
  | fresh h =>
      simp only [List.mem_cons, List.not_mem_nil, or_false]
      rintro c' (rfl | rfl)
      · exact .first h
      · exact .second h

theorem run_sound {fuel seen j : Nat} (h : run code text fuel seen pending = some j) :
    ∃ c ∈ pending, ∃ n, Stops code text j n c := by
  induction fuel generalizing seen pending with
  | zero => cases h
  | succ fuel ih =>
      cases pending with
      | nil => cases h
      | cons c pending =>
          rcases run_cons fuel c with ⟨hstop, hrun⟩ | ⟨seen', cs, hvisit, hrun⟩
          · cases hrun.symm.trans h
            exact ⟨c, List.mem_cons_self .., 0, .stop hstop⟩
          · obtain ⟨c', hc, n, hn⟩ := ih (hrun.symm.trans h)
            rcases List.mem_append.1 hc with hc | hc
            · exact ⟨c, List.mem_cons_self .., n + 1, .step (hvisit.step c' hc) hn⟩
            · exact ⟨c', List.mem_cons_of_mem _ hc, n, hn⟩

/-- Pairs from which nothing is missed: those pending, the forks already taken, and those whose
instruction leads to such pairs alone. -/
inductive Covered (code : Array Instruction) (text : Array Char) (seen : Nat)
    (pending : List (Nat × Nat)) : Nat × Nat → Prop
  | pending {c : Nat × Nat} (h : c ∈ pending) : Covered code text seen pending c
  | seen {q i first second : Nat} (h : code[q]? = some (.fork first second))
      (hs : seen.testBit (mark code (q, i)) = true) : Covered code text seen pending (q, i)
  | move {c : Nat × Nat} (hstop : code[c.1]? ≠ some .stop)
      (hfork : ∀ first second, code[c.1]? ≠ some (.fork first second))
      (h : ∀ c', Step code text c c' → Covered code text seen pending c') :
      Covered code text seen pending c

def Closed (code : Array Instruction) (text : Array Char) (seen : Nat)
    (pending : List (Nat × Nat)) : Prop :=
  ∀ {q i first second : Nat}, code[q]? = some (.fork first second) →
    seen.testBit (mark code (q, i)) = true →
    Covered code text seen pending (first, i) ∧ Covered code text seen pending (second, i)

theorem mark_injective {q i q' i' : Nat} (hq : q < code.size) (hq' : q' < code.size)
    (h : mark code (q, i) = mark code (q', i')) : (q, i) = (q', i') := by
  have hmod := congrArg (· % code.size) h
  have hdiv := congrArg (· / code.size) h
  simp only [mark, Nat.mul_add_mod_self_right, Nat.mod_eq_of_lt hq, Nat.mod_eq_of_lt hq'] at hmod
  simp only [mark, Nat.mul_comm _ code.size, Nat.mul_add_div (Nat.zero_lt_of_lt hq),
    Nat.div_eq_of_lt hq, Nat.div_eq_of_lt hq', Nat.add_zero] at hdiv
  rw [hmod, hdiv]

theorem lt_size_of_eq_some {q : Nat} {instruction : Instruction}
    (h : code[q]? = some instruction) : q < code.size :=
  (Array.getElem?_eq_some_iff.1 h).1

theorem testBit_or_bit (n seen k : Nat) :
    (seen ||| 1 <<< n).testBit k = (seen.testBit k || k == n) := by
  rw [Nat.testBit_or, testBit_bit]

theorem Visit.testBit (h : Visit code text seen c seen' cs) {k : Nat}
    (hk : seen.testBit k = true) : seen'.testBit k = true := by
  cases h with
  | fresh => rw [testBit_or_bit, hk, Bool.true_or]
  | _ => exact hk

theorem Visit.covered (h : Visit code text seen c seen' cs) {x : Nat × Nat}
    (hx : Covered code text seen (c :: pending) x) :
    Covered code text seen' (cs ++ pending) x := by
  induction hx with
  | pending hmem =>
      rcases List.mem_cons.1 hmem with rfl | hmem
      · cases h with
        | dead hstop h =>
            refine .move hstop (fun first second hf => ?_) fun c' hc => absurd hc (h c')
            exact h (first, _) (.first hf)
        | move hfork h honly =>
            refine .move (fun hstop => ?_) hfork fun c' hc => ?_
            · cases h <;> simp_all
            · rw [honly c' hc]
              exact .pending (List.mem_cons_self ..)
        | old h hs => exact .seen h hs
        | fresh h => exact .seen h (by rw [testBit_or_bit]; simp)
      · exact .pending (List.mem_append_right _ hmem)
  | seen hf hs => exact .seen hf (h.testBit hs)
  | move hstop hfork _ ih => exact .move hstop hfork ih

theorem Visit.closed (h : Visit code text seen c seen' cs)
    (hclosed : Closed code text seen (c :: pending)) : Closed code text seen' (cs ++ pending) := by
  intro q i first second hf hs
  by_cases hold : seen.testBit (mark code (q, i)) = true
  · have hpair := hclosed hf hold
    exact ⟨h.covered hpair.1, h.covered hpair.2⟩
  · cases h with
    | @fresh q' i' first' second' hf' =>
        rw [testBit_or_bit, Bool.or_eq_true, beq_iff_eq] at hs
        cases mark_injective (lt_size_of_eq_some hf) (lt_size_of_eq_some hf')
          (hs.resolve_left hold)
        cases hf.symm.trans hf'
        exact ⟨.pending (by simp), .pending (by simp)⟩
    | _ => exact absurd hs hold

theorem Covered.not_stops (hclosed : Closed code text seen []) {x : Nat × Nat}
    (hx : Covered code text seen [] x) {j n : Nat} : ¬Stops code text j n x := by
  induction n generalizing x with
  | zero =>
      rintro ⟨hstop⟩
      cases hx with
      | pending h => cases h
      | seen h => simp [hstop] at h
      | move h => exact h hstop
  | succ n ih =>
      intro hn
      cases hn with
      | step hstep hn =>
          cases hx with
          | pending h => cases h
          | move _ _ h => exact ih (h _ hstep) hn
          | seen h hs =>
              obtain ⟨hfirst, hsecond⟩ := hclosed h hs
              cases hstep with
              | char h' => simp [h] at h'
              | anchor h' => simp [h] at h'
              | first h' =>
                  cases h.symm.trans h'
                  exact ih hfirst hn
              | second h' =>
                  cases h.symm.trans h'
                  exact ih hsecond hn

theorem Step.position_le (h : Step code text c c') (hi : c.2 ≤ text.size) : c'.2 ≤ text.size := by
  cases h with
  | @char q i next s _ hs =>
      refine Nat.lt_of_not_le fun hn => ?_
      rw [Array.getElem?_eq_none hn] at hs
      cases hs
  | _ => exact hi

def budget (code : Array Instruction) (text : Array Char) (seen : Nat)
    (pending : List (Nat × Nat)) : Nat :=
  2 * code.size * missing (code.size * (text.size + 1)) seen + (pending.map (·.1 + 1)).sum

theorem Visit.budget_lt (hd : Directed code) (h : Visit code text seen c seen' cs)
    (hi : c.2 ≤ text.size) :
    budget code text seen' (cs ++ pending) < budget code text seen (c :: pending) := by
  unfold budget
  cases h with
  | dead => simp only [List.nil_append, List.map_cons, List.sum_cons]; omega
  | old => simp only [List.nil_append, List.map_cons, List.sum_cons]; omega
  | @move c c' hfork hstep =>
      have hlt : c'.1 < c.1 := by
        cases hstep with
        | char h => exact hd.char h
        | anchor h => exact hd.anchor h
        | first h => exact absurd h (hfork _ _)
        | second h => exact absurd h (hfork _ _)
      simp only [List.cons_append, List.nil_append, List.map_cons, List.sum_cons]
      omega
  | @fresh q i first second hf hs =>
      have hfork := hd.fork hf
      have hq := lt_size_of_eq_some hf
      have hmark : mark code (q, i) ≤ code.size * (text.size + 1) := by
        have hrows := Nat.mul_le_mul_right code.size (show i ≤ text.size from hi)
        change i * code.size + q ≤ _
        rw [Nat.mul_comm code.size, Nat.succ_mul]
        omega
      have hmissing : missing (code.size * (text.size + 1)) (seen ||| 1 <<< mark code (q, i)) <
          missing (code.size * (text.size + 1)) seen := by
        refine countP_lt_of_imp (x := mark code (q, i)) (fun k hk => ?_)
          (List.mem_range.2 (Nat.lt_succ_of_le hmark)) (by simp [hs]) ?_
        · rw [testBit_or_bit] at hk
          cases hbit : seen.testBit k <;> simp_all
        · rw [testBit_or_bit]
          simp
      have hspent := Nat.mul_le_mul_left (2 * code.size) hmissing
      rw [Nat.mul_succ] at hspent
      simp only [List.cons_append, List.nil_append, List.map_cons, List.sum_cons]
      omega

theorem run_complete (hd : Directed code) {fuel : Nat}
    (hfuel : budget code text seen pending < fuel) (hi : ∀ c ∈ pending, c.2 ≤ text.size)
    (hclosed : Closed code text seen pending) (h : run code text fuel seen pending = none)
    {x : Nat × Nat} (hx : Covered code text seen pending x) {j n : Nat} :
    ¬Stops code text j n x := by
  induction fuel generalizing seen pending with
  | zero => exact absurd hfuel (Nat.not_lt_zero _)
  | succ fuel ih =>
      cases pending with
      | nil => exact hx.not_stops hclosed
      | cons c pending =>
          rcases run_cons fuel c with ⟨-, hrun⟩ | ⟨seen', cs, hvisit, hrun⟩
          · cases hrun.symm.trans h
          · have hc := hi c (List.mem_cons_self ..)
            have hbudget : budget code text seen' (cs ++ pending) <
                budget code text seen (c :: pending) := hvisit.budget_lt hd hc
            refine ih (by omega) (fun c' hc' => ?_) (hvisit.closed hclosed) (hrun.symm.trans h)
              (hvisit.covered hx)
            rcases List.mem_append.1 hc' with hc' | hc'
            · exact (hvisit.step c' hc').position_le hc
            · exact hi c' (List.mem_cons_of_mem _ hc')

end Visits

section Machines

variable {m : Machine} {text : Array Char} {i j : Nat}

theorem stops_of_preferred? (h : m.preferred? text i = some j) :
    ∃ n, Stops m.code text j n (m.start, i) := by
  obtain ⟨c, hc, hn⟩ := run_sound h
  rwa [List.mem_singleton.1 hc] at hn

theorem not_stops_of_preferred? (hd : Directed m.code) (hstart : m.start < m.code.size)
    (hi : i ≤ text.size) (h : m.preferred? text i = none) (j n : Nat) :
    ¬Stops m.code text j n (m.start, i) := by
  have hclosed : Closed m.code text 0 [(m.start, i)] := by
    intro q i first second _ hs
    simp at hs
  refine run_complete hd ?_ (by simpa using hi) hclosed h (.pending (List.mem_singleton_self _))
  have hmissing : missing (m.code.size * (text.size + 1)) 0 ≤ m.code.size * (text.size + 1) + 1 :=
    Nat.le_trans List.countP_le_length (by simp)
  have hspent := Nat.mul_le_mul_left (2 * m.code.size) hmissing
  have hrows : m.code.size ≤ m.code.size * (text.size + 1) :=
    Nat.le_mul_of_pos_right _ (Nat.succ_pos _)
  have hfuel : m.fuel text.size = 2 * m.code.size * (m.code.size * (text.size + 1) + 1) +
      2 * (m.code.size * (text.size + 1)) + 2 := by
    unfold fuel
    ring
  simp only [budget, List.map_cons, List.map_nil, List.sum_cons, List.sum_nil]
  omega

end Machines

end AnswerGrading.Regex.Machine
