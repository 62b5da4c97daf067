import AnswerGrading.Proofs.MachineRuns

/-!
The code of a regular expression. What is put in front of a machine leads to its start with the
stretches of the text that the expression matches, whatever comes to stand before and behind it.
-/

namespace AnswerGrading.Regex

open Machine (Step Stops Directed choice)

section Forks

variable {code : Array Instruction} {text : Array Char} {q i k n : Nat}

theorem stops_fork {first second : Nat} (h : code[q]? = some (.fork first second)) :
    Stops code text k (n + 1) (q, i) ↔
      Stops code text k n (first, i) ∨ Stops code text k n (second, i) := by
  constructor
  · intro hn
    cases hn with
    | step hstep hn =>
        cases hstep with
        | char h' => simp [h] at h'
        | anchor h' => simp [h] at h'
        | first h' =>
            cases h.symm.trans h'
            exact .inl hn
        | second h' =>
            cases h.symm.trans h'
            exact .inr hn
  · rintro (hn | hn)
    · exact .step (.first h) hn
    · exact .step (.second h) hn

theorem stops_choice {greedy : Bool} {again out : Nat}
    (h : code[q]? = some (choice greedy again out)) :
    Stops code text k (n + 1) (q, i) ↔
      Stops code text k n (again, i) ∨ Stops code text k n (out, i) := by
  cases greedy with
  | true => exact stops_fork h
  | false => exact (stops_fork h).trans or_comm

theorem exists_succ_of_stops_choice {greedy : Bool} {again out : Nat}
    (h : code[q]? = some (choice greedy again out)) (hn : Stops code text k n (q, i)) :
    ∃ n', n = n' + 1 ∧ (Stops code text k n' (again, i) ∨ Stops code text k n' (out, i)) := by
  cases n with
  | zero =>
      cases hn with
      | stop hstop => cases greedy <;> cases h.symm.trans hstop
  | succ n => exact ⟨n, rfl, (stops_choice h).1 hn⟩

end Forks

section Code

variable {code : Array Instruction} {instruction found : Instruction} {q : Nat}

theorem getElem?_push_cases (h : (code.push instruction)[q]? = some found) :
    code[q]? = some found ∨ q = code.size ∧ found = instruction := by
  rw [Array.getElem?_push] at h
  split at h
  · rename_i hq
    exact .inr ⟨hq, (Option.some.inj h).symm⟩
  · exact .inl h

theorem getElem?_push_of_lt (h : q < code.size) :
    (code.push instruction)[q]? = code[q]? := by
  rw [Array.getElem?_push, if_neg (Nat.ne_of_lt h)]

theorem directed_push (hd : Directed code)
    (hchar : ∀ s next, instruction = .char s next → next < code.size)
    (hanchor : ∀ a next, instruction = .anchor a next → next < code.size)
    (hfork : ∀ first second, instruction = .fork first second →
      first ≤ code.size ∧ second ≤ code.size) :
    Directed (code.push instruction) where
  char h := by
    rcases getElem?_push_cases h with h | ⟨rfl, he⟩
    · exact hd.char h
    · exact hchar _ _ he.symm
  anchor h := by
    rcases getElem?_push_cases h with h | ⟨rfl, he⟩
    · exact hd.anchor h
    · exact hanchor _ _ he.symm
  fork h := by
    rw [Array.size_push]
    rcases getElem?_push_cases h with h | ⟨rfl, he⟩
    · exact ⟨Nat.lt_succ_of_lt (hd.fork h).1, Nat.lt_succ_of_lt (hd.fork h).2⟩
    · exact ⟨Nat.lt_succ_of_le (hfork _ _ he.symm).1, Nat.lt_succ_of_le (hfork _ _ he.symm).2⟩

theorem directed_choice {greedy : Bool} {again out : Nat} (hd : Directed code)
    (hagain : again ≤ code.size) (hout : out ≤ code.size) :
    Directed (code.push (choice greedy again out)) := by
  cases greedy with
  | true =>
      refine directed_push hd nofun nofun ?_
      rintro _ _ ⟨⟩
      exact ⟨hagain, hout⟩
  | false =>
      refine directed_push hd nofun nofun ?_
      rintro _ _ ⟨⟩
      exact ⟨hout, hagain⟩

end Code

/-- The code holds the instructions of the machine from a state on. -/
def Holds (code : Array Instruction) (first : Nat) (m : Machine) : Prop :=
  ∀ q, first ≤ q → q < m.code.size → code[q]? = m.code[q]?

namespace Holds

variable {code : Array Instruction} {first : Nat} {m m' : Machine}

theorem later {first' : Nat} (hc : Holds code first m) (hle : first ≤ first') :
    Holds code first' m :=
  fun q hq => hc q (Nat.le_trans hle hq)

theorem behind (hc : Holds code first m') (hsize : m.code.size ≤ m'.code.size)
    (hkeeps : ∀ q < m.code.size, m'.code[q]? = m.code[q]?) : Holds code first m := by
  intro q hq hlt
  rw [hc q hq (Nat.lt_of_lt_of_le hlt hsize), hkeeps q hlt]

theorem last {instruction : Instruction} {cs : Array Instruction}
    (hc : Holds code first (Machine.push cs instruction)) (hle : first ≤ cs.size) :
    code[cs.size]? = some instruction := by
  rw [hc _ hle (by simp [Machine.push])]
  simp [Machine.push]

theorem of_push {instruction : Instruction}
    (hc : Holds code first (Machine.push m.code instruction)) : Holds code first m :=
  hc.behind (by simp [Machine.push]) fun _ => getElem?_push_of_lt

end Holds

/-- The second machine has the code of the first one behind its own, and its own leads from `i` to
the start of the first with `j` where the relation does. -/
structure Fits (text : Array Char) (R : Nat → Nat → Prop) (m m' : Machine) : Prop where
  size_le : m.code.size ≤ m'.code.size
  start_lt : m'.start < m'.code.size
  keeps : ∀ q < m.code.size, m'.code[q]? = m.code[q]?
  directed : Directed m.code → Directed m'.code
  enter : ∀ {code : Array Instruction}, Holds code m.code.size m' → ∀ {i j k n : Nat}, R i j →
    Stops code text k n (m.start, j) → ∃ n', Stops code text k n' (m'.start, i)
  leave : ∀ {code : Array Instruction}, Holds code m.code.size m' → ∀ {i k n : Nat},
    Stops code text k n (m'.start, i) → ∃ j n', n' ≤ n ∧ R i j ∧ Stops code text k n' (m.start, j)

namespace Fits

variable {text : Array Char} {R S : Nat → Nat → Prop} {m m₁ m₂ : Machine}

theorem congr (h : Fits text R m m₁) (hiff : ∀ i j, R i j ↔ S i j) : Fits text S m m₁ := by
  have he : R = S := funext fun i => funext fun j => propext (hiff i j)
  rwa [← he]

theorem refl (hm : m.start < m.code.size) : Fits text Eq m m where
  size_le := Nat.le_refl _
  start_lt := hm
  keeps _ _ := rfl
  directed := id
  enter := by
    rintro code - i j k n rfl hn
    exact ⟨n, hn⟩
  leave _ _ _ n hn := ⟨_, n, Nat.le_refl n, rfl, hn⟩

theorem seq (h : Fits text S m m₁) (h' : Fits text R m₁ m₂) :
    Fits text (fun i j => ∃ k, R i k ∧ S k j) m m₂ := by
  have hold {code : Array Instruction} (hc : Holds code m.code.size m₂) :
      Holds code m.code.size m₁ ∧ Holds code m₁.code.size m₂ :=
    ⟨hc.behind h'.size_le h'.keeps, hc.later h.size_le⟩
  refine ⟨Nat.le_trans h.size_le h'.size_le, h'.start_lt, fun q hq => ?_,
    fun hd => h'.directed (h.directed hd), ?_, ?_⟩
  · rw [h'.keeps q (Nat.lt_of_lt_of_le hq h.size_le), h.keeps q hq]
  · rintro code hc i j k n ⟨l, hl, hj⟩ hn
    obtain ⟨n₁, hn₁⟩ := h.enter (hold hc).1 hj hn
    exact h'.enter (hold hc).2 hl hn₁
  · intro code hc i k n hn
    obtain ⟨l, n₁, hle₁, hl, hn₁⟩ := h'.leave (hold hc).2 hn
    obtain ⟨j, n₂, hle₂, hj, hn₂⟩ := h.leave (hold hc).1 hn₁
    exact ⟨j, n₂, Nat.le_trans hle₂ hle₁, ⟨l, hl, hj⟩, hn₂⟩

theorem single {instruction : Instruction}
    (hdirected : Directed m.code → Directed (m.code.push instruction))
    (hstop : instruction ≠ .stop)
    (hstep : ∀ {code : Array Instruction} {q : Nat}, code[q]? = some instruction → ∀ i c,
      Step code text (q, i) c ↔ ∃ j, R i j ∧ c = (m.start, j)) :
    Fits text R m (Machine.push m.code instruction) := by
  refine ⟨by simp [Machine.push], by simp [Machine.push], fun q => getElem?_push_of_lt, hdirected,
    ?_, ?_⟩
  · intro code hc i j k n hr hn
    exact ⟨n + 1, .step ((hstep (hc.last (Nat.le_refl _)) i _).2 ⟨j, hr, rfl⟩) hn⟩
  · intro code hc i k n hn
    cases hn with
    | stop h => exact absurd (Option.some.inj ((hc.last (Nat.le_refl _)).symm.trans h)) hstop
    | @step n _ _ h hn =>
        obtain ⟨j, hr, rfl⟩ := (hstep (hc.last (Nat.le_refl _)) i _).1 h
        exact ⟨j, n, Nat.le_succ n, hr, hn⟩

theorem char (hm : m.start < m.code.size) (s : CharSet) :
    Fits text ((Regular.char s).Matches text) m (Machine.push m.code (.char s m.start)) := by
  refine single (fun hd => directed_push hd ?_ nofun nofun) nofun fun h i c => ?_
  · rintro s next he
    cases he
    exact hm
  · constructor
    · intro hstep
      cases hstep with
      | char h' hs =>
          cases h.symm.trans h'
          obtain ⟨c, hi, hs⟩ := (Option.any_eq_true _ _).1 hs
          exact ⟨i + 1, ⟨rfl, c, hi, hs⟩, rfl⟩
      | anchor h' => cases h.symm.trans h'
      | first h' => cases h.symm.trans h'
      | second h' => cases h.symm.trans h'
    · rintro ⟨j, ⟨rfl, d, hi, hs⟩, rfl⟩
      exact .char h (by simp [hi, hs])

theorem anchor (hm : m.start < m.code.size) (a : Anchor) :
    Fits text ((Regular.anchor a).Matches text) m (Machine.push m.code (.anchor a m.start)) := by
  refine single (fun hd => directed_push hd nofun ?_ nofun) nofun fun h i c => ?_
  · rintro a next he
    cases he
    exact hm
  · constructor
    · intro hstep
      cases hstep with
      | char h' => cases h.symm.trans h'
      | anchor h' ha =>
          cases h.symm.trans h'
          exact ⟨i, ⟨rfl, ha⟩, rfl⟩
      | first h' => cases h.symm.trans h'
      | second h' => cases h.symm.trans h'
    · rintro ⟨j, ⟨rfl, ha⟩, rfl⟩
      exact .anchor h ha

theorem choice (greedy : Bool) (h : Fits text S m m₁)
    (h' : Fits text R ⟨m₁.code, m.start⟩ m₂) :
    Fits text (fun i j => R i j ∨ S i j) m
      (Machine.push m₂.code (Machine.choice greedy m₂.start m₁.start)) := by
  have hsize : m₁.code.size ≤ m₂.code.size := h'.size_le
  have hle := Nat.le_trans h.size_le hsize
  have hheld {code : Array Instruction}
      (hc : Holds code m.code.size
        (Machine.push m₂.code (Machine.choice greedy m₂.start m₁.start))) :
      Holds code m.code.size m₁ ∧ Holds code m₁.code.size m₂ ∧
        code[m₂.code.size]? = some (Machine.choice greedy m₂.start m₁.start) :=
    ⟨hc.of_push.behind hsize h'.keeps, hc.of_push.later h.size_le, hc.last hle⟩
  refine ⟨?_, by simp [Machine.push], fun q hq => ?_, fun hd => ?_, ?_, ?_⟩
  · simp only [Machine.push, Array.size_push]
    omega
  · have hq₁ := Nat.lt_of_lt_of_le hq h.size_le
    rw [Machine.push, getElem?_push_of_lt (Nat.lt_of_lt_of_le hq₁ hsize), h'.keeps q hq₁,
      h.keeps q hq]
  · exact directed_choice (h'.directed (h.directed hd)) (Nat.le_of_lt h'.start_lt)
      (Nat.le_trans (Nat.le_of_lt h.start_lt) hsize)
  · intro code hc i j k n hr hn
    obtain ⟨hc₁, hc₂, hfork⟩ := hheld hc
    rcases hr with hr | hr
    · obtain ⟨n', hn'⟩ := h'.enter hc₂ hr hn
      exact ⟨n' + 1, (stops_choice hfork).2 (.inl hn')⟩
    · obtain ⟨n', hn'⟩ := h.enter hc₁ hr hn
      exact ⟨n' + 1, (stops_choice hfork).2 (.inr hn')⟩
  · intro code hc i k n hn
    obtain ⟨hc₁, hc₂, hfork⟩ := hheld hc
    obtain ⟨n', rfl, hn' | hn'⟩ := exists_succ_of_stops_choice hfork hn
    · obtain ⟨j, l, hl, hr, hj⟩ := h'.leave hc₂ hn'
      exact ⟨j, l, Nat.le_succ_of_le hl, .inl hr, hj⟩
    · obtain ⟨j, l, hl, hr, hj⟩ := h.leave hc₁ hn'
      exact ⟨j, l, Nat.le_succ_of_le hl, .inr hr, hj⟩

theorem times_succ (f : Machine → Machine) (n : Nat) (m : Machine) :
    Machine.times f (n + 1) m = f (Machine.times f n m) := by
  induction n generalizing m with
  | zero => rfl
  | succ n ih => exact ih (f m)

section Loops

variable {f : Machine → Machine} (hf : ∀ m : Machine, m.start < m.code.size → Fits text R m (f m))

include hf

theorem times (hm : m.start < m.code.size) (n : Nat) :
    Fits text (Steps R n) m (Machine.times f n m) := by
  induction n with
  | zero => exact .refl hm
  | succ n ih =>
      rw [times_succ]
      exact ih.seq (hf _ ih.start_lt)

theorem upTo (hm : m.start < m.code.size) (greedy : Bool) (n : Nat) :
    Fits text (fun i j => ∃ k ≤ n, Steps R k i j) m
      (Machine.times (Machine.optional f greedy m.start) n m) := by
  induction n with
  | zero =>
      refine (Fits.refl hm).congr fun i j => ?_
      exact ⟨fun h => ⟨0, Nat.le_refl 0, h⟩, fun ⟨k, hk, h⟩ => by cases Nat.le_zero.1 hk; exact h⟩
  | succ n ih =>
      rw [times_succ]
      refine ((Fits.refl hm).choice greedy (ih.seq (hf _ ih.start_lt))).congr fun i j => ?_
      constructor
      · rintro (⟨k, hr, l, hl, hs⟩ | rfl)
        · exact ⟨l + 1, Nat.succ_le_succ hl, k, hr, hs⟩
        · exact ⟨0, Nat.zero_le _, rfl⟩
      · rintro ⟨_ | l, hl, h⟩
        · exact .inr h
        · obtain ⟨k, hr, hs⟩ := h
          exact .inl ⟨k, hr, l, Nat.le_of_succ_le_succ hl, hs⟩

end Loops

/-- The code of a loop whose body has been put in front of a placeholder for the fork. -/
def looped (greedy : Bool) (m body : Machine) : Array Instruction :=
  body.code.setIfInBounds m.code.size (Machine.choice greedy body.start m.start)

section Stars

variable {greedy : Bool} {body : Machine}
  (hb : Fits text R ⟨m.code.push .stop, m.code.size⟩ body)

theorem size_looped : (looped greedy m body).size = body.code.size := by
  simp [looped]

include hb

theorem size_lt_body : m.code.size < body.code.size := by
  have hle := hb.size_le
  rw [Array.size_push] at hle
  exact hle

theorem looped_keeps {q : Nat} (hq : q < m.code.size) :
    (looped greedy m body)[q]? = m.code[q]? := by
  rw [looped, Array.getElem?_setIfInBounds_ne (Nat.ne_of_gt hq),
    hb.keeps q (by rw [Array.size_push]; omega), getElem?_push_of_lt hq]

theorem looped_fork :
    (looped greedy m body)[m.code.size]? = some (Machine.choice greedy body.start m.start) := by
  rw [looped, Array.getElem?_setIfInBounds_self_of_lt hb.size_lt_body]

theorem looped_directed (hm : m.start < m.code.size) (hd : Directed m.code) :
    Directed (looped greedy m body) := by
  have hbody : Directed body.code := hb.directed (directed_push hd nofun nofun nofun)
  have hstart := Nat.lt_trans hm hb.size_lt_body
  have hcases {q : Nat} {instruction : Instruction}
      (h : (looped greedy m body)[q]? = some instruction) :
      body.code[q]? = some instruction ∨
        instruction = Machine.choice greedy body.start m.start := by
    by_cases hq : m.code.size = q
    · subst hq
      rw [hb.looped_fork] at h
      exact .inr (Option.some.inj h).symm
    · rw [looped, Array.getElem?_setIfInBounds_ne hq] at h
      exact .inl h
  refine ⟨fun h => ?_, fun h => ?_, fun h => ?_⟩
  · rcases hcases h with h | h
    · exact hbody.char h
    · cases greedy <;> cases h
  · rcases hcases h with h | h
    · exact hbody.anchor h
    · cases greedy <;> cases h
  · rw [size_looped]
    rcases hcases h with h | h
    · exact hbody.fork h
    · cases greedy with
      | true =>
          cases h
          exact ⟨hb.start_lt, hstart⟩
      | false =>
          cases h
          exact ⟨hstart, hb.start_lt⟩

variable {code : Array Instruction} {start : Nat}
  (hc : Holds code m.code.size ⟨looped greedy m body, start⟩)

include hc

theorem held_fork : code[m.code.size]? = some (Machine.choice greedy body.start m.start) := by
  rw [hc _ (Nat.le_refl _) (by simpa [size_looped] using hb.size_lt_body)]
  exact hb.looped_fork

omit hb in
theorem held_body : Holds code (m.code.push .stop).size body := by
  intro q hq hlt
  rw [Array.size_push] at hq
  rw [hc q (Nat.le_of_succ_le hq) (by simpa [size_looped] using hlt)]
  exact Array.getElem?_setIfInBounds_ne (Nat.ne_of_lt hq)

theorem enter_loop {r i j k n : Nat} (hr : Steps R r i j) (hn : Stops code text k n (m.start, j)) :
    ∃ n', Stops code text k n' (m.code.size, i) := by
  induction r generalizing i with
  | zero =>
      cases hr
      exact ⟨n + 1, (stops_choice (hb.held_fork hc)).2 (.inr hn)⟩
  | succ r ih =>
      obtain ⟨l, hl, hr⟩ := hr
      obtain ⟨n₁, hn₁⟩ := ih hr
      obtain ⟨n₂, hn₂⟩ := hb.enter (held_body hc) hl hn₁
      exact ⟨n₂ + 1, (stops_choice (hb.held_fork hc)).2 (.inl hn₂)⟩

theorem leave_loop {i k n : Nat} (hn : Stops code text k n (m.code.size, i)) :
    ∃ j n', n' ≤ n ∧ (∃ r, Steps R r i j) ∧ Stops code text k n' (m.start, j) := by
  induction n using Nat.strongRecOn generalizing i with
  | ind n ih =>
      obtain ⟨n₁, rfl, hn₁ | hn₁⟩ := exists_succ_of_stops_choice (hb.held_fork hc) hn
      · obtain ⟨l, n₂, hle, hl, hn₂⟩ := hb.leave (held_body hc) hn₁
        obtain ⟨j, n₃, hle', ⟨r, hr⟩, hn₃⟩ := ih n₂ (Nat.lt_succ_of_le hle) hn₂
        exact ⟨j, n₃, by omega, ⟨r + 1, l, hl, hr⟩, hn₃⟩
      · exact ⟨i, n₁, Nat.le_succ n₁, ⟨0, rfl⟩, hn₁⟩

end Stars

section Unbounded

variable {f : Machine → Machine} (hf : ∀ m : Machine, m.start < m.code.size → Fits text R m (f m))

include hf

theorem star (hm : m.start < m.code.size) (greedy : Bool) :
    Fits text (fun i j => ∃ n, Steps R n i j) m (Machine.star f greedy m) := by
  have hb := hf ⟨m.code.push .stop, m.code.size⟩ (by simp)
  refine ⟨?_, ?_, fun q => hb.looped_keeps, hb.looped_directed hm, ?_, fun hc => hb.leave_loop hc⟩
  · exact Nat.le_of_lt (by simpa [Machine.star] using hb.size_lt_body)
  · simpa [Machine.star] using hb.size_lt_body
  · rintro code hc i j k n ⟨r, hr⟩ hn
    exact hb.enter_loop hc hr hn

theorem plus (hm : m.start < m.code.size) (greedy : Bool) :
    Fits text (fun i j => ∃ n, Steps R (n + 1) i j) m (Machine.plus f greedy m) := by
  have hb := hf ⟨m.code.push .stop, m.code.size⟩ (by simp)
  refine ⟨?_, ?_, fun q => hb.looped_keeps, hb.looped_directed hm, ?_, ?_⟩
  · exact Nat.le_of_lt (by simpa [Machine.plus] using hb.size_lt_body)
  · simpa [Machine.plus] using hb.start_lt
  · rintro code hc i j k n ⟨r, l, hl, hr⟩ hn
    obtain ⟨n₁, hn₁⟩ := hb.enter_loop hc hr hn
    exact hb.enter (held_body hc) hl hn₁
  · intro code hc i k n hn
    obtain ⟨l, n₁, hle, hl, hn₁⟩ := hb.leave (held_body hc) hn
    obtain ⟨j, n₂, hle', ⟨r, hr⟩, hn₂⟩ := hb.leave_loop hc hn₁
    exact ⟨j, n₂, Nat.le_trans hle' hle, ⟨r, l, hl, hr⟩, hn₂⟩

end Unbounded

end Fits

theorem Regular.fits_loop {text : Array Char} {r : Regular}
    (hr : ∀ m : Machine, m.start < m.code.size → Fits text (r.Matches text) m (r.before m))
    {least : Nat} {most : Option Nat} (hs : most.all (least ≤ ·) = true) (greedy : Bool)
    {m : Machine} (hm : m.start < m.code.size) :
    Fits text ((Regular.loop least most greedy r).Matches text) m
      ((Regular.loop least most greedy r).before m) := by
  cases most with
  | some most =>
      have hle : least ≤ most := by simpa using hs
      have hrest := Fits.upTo hr hm greedy (most - least)
      refine (hrest.seq (Fits.times hr hrest.start_lt least)).congr fun i j => ?_
      simp [matches_loop_iff, Nat.le_sub_iff_add_le' hle]
  | none =>
      cases least with
      | zero =>
          rw [before]
          split
          · refine ((Fits.refl hm).choice greedy (Fits.plus hr hm greedy)).congr fun i j => ?_
            constructor
            · rintro (⟨n, hn⟩ | rfl)
              · exact ⟨n + 1, Nat.zero_le _, nofun, hn⟩
              · exact ⟨0, Nat.le_refl _, nofun, rfl⟩
            · rintro ⟨_ | n, -, -, hn⟩
              · exact .inr hn
              · exact .inl ⟨n, hn⟩
          · refine (Fits.star hr hm greedy).congr fun i j => ?_
            simp [Matches]
      | succ least =>
          have hplus := Fits.plus hr hm greedy
          refine (hplus.seq (Fits.times hr hplus.start_lt least)).congr fun i j => ?_
          rw [matches_loop_iff]
          constructor
          · rintro ⟨k, hik, n, l, hkl, hlj⟩
            exact ⟨l, hik.trans ⟨l, hkl, rfl⟩, n, nofun, hlj⟩
          · rintro ⟨l, hil, n, -, hlj⟩
            obtain ⟨k, hik, l, hkl, rfl⟩ := hil.split
            exact ⟨k, hik, n, l, hkl, hlj⟩

theorem Regular.fits_before {text : Array Char} {r : Regular} (hs : r.Sound = true) {m : Machine}
    (hm : m.start < m.code.size) : Fits text (r.Matches text) m (r.before m) := by
  induction r generalizing m with
  | empty => exact .refl hm
  | char s => exact .char hm s
  | anchor a => exact .anchor hm a
  | seq r s ihr ihs =>
      rw [Sound, Bool.and_eq_true] at hs
      have hright := ihs hs.2 hm
      exact hright.seq (ihr hs.1 hright.start_lt)
  | alt r s ihr ihs =>
      rw [Sound, Bool.and_eq_true] at hs
      have hright := ihs hs.2 hm
      exact hright.choice true (ihr hs.1 (Nat.lt_of_lt_of_le hm hright.size_le))
  | loop least most greedy r ih =>
      rw [Sound, Bool.and_eq_true] at hs
      exact fits_loop (fun m hm => ih hs.2 hm) hs.1 greedy hm

theorem Regular.fits_machine (text : Array Char) {r : Regular} (hs : r.Sound = true) :
    Fits text (r.Matches text) ⟨#[.stop], 0⟩ r.machine :=
  fits_before hs (by simp)

theorem Regular.stops_machine_iff {text : Array Char} {r : Regular} (hs : r.Sound = true)
    {i j : Nat} :
    (∃ n, Stops r.machine.code text j n (r.machine.start, i)) ↔ r.Matches text i j := by
  have hfits := fits_machine text hs
  have hheld : Holds r.machine.code 1 r.machine := fun _ _ _ => rfl
  have hstop : r.machine.code[0]? = some .stop := hfits.keeps 0 (by simp)
  constructor
  · rintro ⟨n, hn⟩
    obtain ⟨k, n', -, hk, hn'⟩ := hfits.leave hheld hn
    cases hn' with
    | stop => exact hk
    | step h =>
        cases h with
        | char h => cases hstop.symm.trans h
        | anchor h => cases hstop.symm.trans h
        | first h => cases hstop.symm.trans h
        | second h => cases hstop.symm.trans h
  · intro h
    exact hfits.enter hheld h (.stop hstop)

theorem Regular.matches_of_preferred? {text : Array Char} {r : Regular} (hs : r.Sound = true)
    {i j : Nat} (h : r.machine.preferred? text i = some j) : r.Matches text i j :=
  (stops_machine_iff hs).1 (Machine.stops_of_preferred? h)

theorem Regular.not_matches_of_preferred? {text : Array Char} {r : Regular} (hs : r.Sound = true)
    {i : Nat} (hi : i ≤ text.size) (h : r.machine.preferred? text i = none) (j : Nat) :
    ¬r.Matches text i j := by
  have hfits := fits_machine text hs
  have hempty : Directed #[] := ⟨by simp, by simp, by simp⟩
  have hd : Directed r.machine.code :=
    hfits.directed (directed_push hempty nofun nofun nofun)
  intro hj
  obtain ⟨n, hn⟩ := (stops_machine_iff hs).2 hj
  exact Machine.not_stops_of_preferred? hd hfits.start_lt hi h j n hn

end AnswerGrading.Regex
