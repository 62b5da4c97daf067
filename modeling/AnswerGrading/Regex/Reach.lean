import AnswerGrading.Regex.Regular

/-!
Whole sets of positions moved through a regular expression at once. A set is a number: position `i`
belongs to it when bit `i` is set. `occurs_iff` says that this decides `Matches`.
-/

namespace AnswerGrading.Regex

def positions (p : Char → Bool) : List Char → Nat
  | [] => 0
  | c :: cs => 2 * positions p cs + (p c).toNat

def below (n : Nat) : Nat :=
  1 <<< n - 1

def Anchor.positions (text : Array Char) : Anchor → Nat
  | .textStart => 1
  | .textEnd => 1 <<< text.size
  | .lineStart => 1 ||| Regex.positions (· == '\n') text.toList <<< 1
  | .lineEnd => 1 <<< text.size ||| Regex.positions (· == '\n') text.toList

inductive Walk where
  | stay
  | keep (pass : Nat)
  | step (pass : Nat)
  | seq (v w : Walk)
  | alt (v w : Walk)
  | loop (least further : Nat) (w : Walk)
  deriving DecidableEq, Repr

/-- A text of `n` characters has `n + 1` positions, so that many further rounds find them all. -/
def Regular.walk (text : Array Char) : Regular → Walk
  | .empty => .stay
  | .char s => .step (positions s.mem text.toList)
  | .anchor a => .keep (a.positions text)
  | .seq r s => .seq (r.walk text) (s.walk text)
  | .alt r s => .alt (r.walk text) (s.walk text)
  | .loop least (some most) _ r => .loop least (most - least) (r.walk text)
  | .loop least none _ r => .loop least (text.size + 1) (r.walk text)

/-- Exactly `n` rounds of `f`; a round that changes nothing ends them early. -/
def rounds (f : Nat → Nat) : Nat → Nat → Nat
  | 0, held => held
  | n + 1, held => let next := f held; if next = held then held else rounds f n next

def collect (f : Nat → Nat) : Nat → Nat → Nat
  | 0, held => held
  | n + 1, held => let next := held ||| f held; if next = held then held else collect f n next

def Walk.reach : Walk → Nat → Nat
  | .stay, held => held
  | .keep pass, held => held &&& pass
  | .step pass, held => (held &&& pass) <<< 1
  | .seq v w, held => w.reach (v.reach held)
  | .alt v w, held => v.reach held ||| w.reach held
  | .loop least further w, held => collect w.reach further (rounds w.reach least held)

def Regular.occurs (r : Regular) (text : Array Char) : Bool :=
  (r.walk text).reach (below (text.size + 1)) != 0

theorem testBit_below (n i : Nat) : (below n).testBit i = decide (i < n) := by
  rw [below, Nat.one_shiftLeft, Nat.testBit_two_pow_sub_one]

theorem testBit_bit (n i : Nat) : (1 <<< n).testBit i = (i == n) := by
  rw [Nat.one_shiftLeft, Nat.testBit_two_pow, Bool.eq_iff_iff, decide_eq_true_eq, beq_iff_eq]
  exact eq_comm

theorem testBit_positions (p : Char → Bool) (cs : List Char) (i : Nat) :
    (positions p cs).testBit i = cs[i]?.any p := by
  induction cs generalizing i with
  | nil => simp [positions]
  | cons c cs ih =>
    have hc := Bool.toNat_lt (p c)
    cases i with
    | zero =>
      rw [positions, Nat.testBit_zero, Nat.mul_add_mod, Nat.mod_eq_of_lt hc]
      cases h : p c <;> simp [h]
    | succ i =>
      rw [positions, Nat.testBit_add_one, show _ / 2 = positions p cs by omega, ih]
      simp

theorem any_newline (c : Option Char) : c.any (· == '\n') = (c == some '\n') := by
  cases c <;> simp

theorem Anchor.testBit_positions (a : Anchor) (text : Array Char) (i : Nat) :
    (a.positions text).testBit i = a.holds text i := by
  cases a with
  | textStart => exact testBit_bit 0 i
  | textEnd => exact testBit_bit text.size i
  | lineStart =>
    rw [Anchor.positions, Nat.testBit_or, Nat.testBit_shiftLeft, Regex.testBit_positions,
      show Nat.testBit 1 i = (i == 0) from testBit_bit 0 i]
    cases i with
    | zero => simp [Anchor.holds]
    | succ i => simp [Anchor.holds, any_newline]
  | lineEnd =>
    rw [Anchor.positions, Nat.testBit_or, testBit_bit, Regex.testBit_positions, any_newline]
    simp [Anchor.holds]

def Moves (R : Nat → Nat → Prop) (f : Nat → Nat) : Prop :=
  ∀ held j, (f held).testBit j = true ↔ ∃ i, held.testBit i = true ∧ R i j

theorem Moves.congr {R S : Nat → Nat → Prop} {f : Nat → Nat} (h : Moves R f)
    (hRS : ∀ i j, R i j ↔ S i j) : Moves S f := by
  intro held j
  simp only [h held j, hRS]

theorem Moves.comp {R S : Nat → Nat → Prop} {f g : Nat → Nat} (hf : Moves R f) (hg : Moves S g) :
    Moves (fun i j => ∃ k, R i k ∧ S k j) fun held => g (f held) := by
  intro held j
  rw [hg]
  constructor
  · rintro ⟨k, hk, hs⟩
    obtain ⟨i, hi, hr⟩ := (hf held k).1 hk
    exact ⟨i, hi, k, hr, hs⟩
  · rintro ⟨i, hi, k, hr, hs⟩
    exact ⟨k, (hf held k).2 ⟨i, hi, hr⟩, hs⟩

theorem Moves.or {R S : Nat → Nat → Prop} {f g : Nat → Nat} (hf : Moves R f) (hg : Moves S g) :
    Moves (fun i j => R i j ∨ S i j) fun held => f held ||| g held := by
  intro held j
  rw [Nat.testBit_or, Bool.or_eq_true, hf held j, hg held j]
  constructor
  · rintro (⟨i, hi, h⟩ | ⟨i, hi, h⟩)
    · exact ⟨i, hi, .inl h⟩
    · exact ⟨i, hi, .inr h⟩
  · rintro ⟨i, hi, h | h⟩
    · exact .inl ⟨i, hi, h⟩
    · exact .inr ⟨i, hi, h⟩

theorem Moves.keep {pass : Nat} {p : Nat → Prop} (hp : ∀ i, pass.testBit i = true ↔ p i) :
    Moves (fun i j => i = j ∧ p i) (· &&& pass) := by
  intro held j
  rw [Nat.testBit_and, Bool.and_eq_true, hp]
  constructor
  · exact fun ⟨hj, h⟩ => ⟨j, hj, rfl, h⟩
  · rintro ⟨i, hi, rfl, h⟩
    exact ⟨hi, h⟩

theorem Moves.step {pass : Nat} {p : Nat → Prop} (hp : ∀ i, pass.testBit i = true ↔ p i) :
    Moves (fun i j => j = i + 1 ∧ p i) fun held => (held &&& pass) <<< 1 := by
  intro held j
  rw [Nat.testBit_shiftLeft]
  cases j with
  | zero => simp
  | succ j =>
    simp only [Nat.le_add_left, decide_true, Bool.true_and, Nat.add_sub_cancel, Nat.testBit_and,
      Bool.and_eq_true, hp]
    constructor
    · exact fun ⟨hj, h⟩ => ⟨j, hj, rfl, h⟩
    · rintro ⟨i, hi, hj, h⟩
      obtain rfl := Nat.succ.inj hj
      exact ⟨hi, h⟩

theorem rounds_succ (f : Nat → Nat) (n held : Nat) :
    rounds f (n + 1) held = rounds f n (f held) := by
  by_cases he : f held = held
  · have hr (m : Nat) : rounds f m held = held := by cases m <;> simp [rounds, he]
    rw [hr, he, hr]
  · simp [rounds, he]

theorem Moves.steps {R : Nat → Nat → Prop} {f : Nat → Nat} (h : Moves R f) (n : Nat) :
    Moves (Steps R n) (rounds f n) := by
  induction n with
  | zero => exact fun held j => by simp [rounds, Steps]
  | succ n ih =>
    intro held j
    rw [rounds_succ]
    exact h.comp ih held j

theorem steps_closed {R : Nat → Nat → Prop} {S : Nat → Prop}
    (h : ∀ i j, S i → R i j → S j) {n i j : Nat} (hi : S i) (hs : Steps R n i j) : S j := by
  induction n generalizing i with
  | zero => exact hs ▸ hi
  | succ n ih =>
    obtain ⟨k, hk, hs⟩ := hs
    exact ih (h i k hi hk) hs

theorem Moves.closed_of_fixed {R : Nat → Nat → Prop} {f : Nat → Nat} (h : Moves R f) {held : Nat}
    (he : held ||| f held = held) (i j : Nat) (hi : held.testBit i = true) (hr : R i j) :
    held.testBit j = true := by
  rw [← he, Nat.testBit_or, (h held j).2 ⟨i, hi, hr⟩, Bool.or_true]

theorem Moves.upTo {R : Nat → Nat → Prop} {f : Nat → Nat} (h : Moves R f) (n : Nat) :
    Moves (fun i j => ∃ m, m ≤ n ∧ Steps R m i j) (collect f n) := by
  intro held j
  induction n generalizing held with
  | zero =>
    constructor
    · exact fun hj => ⟨j, hj, 0, Nat.le_refl 0, rfl⟩
    · rintro ⟨i, hi, m, hm, hs⟩
      obtain rfl := Nat.le_zero.1 hm
      exact hs ▸ hi
  | succ n ih =>
    by_cases he : held ||| f held = held
    · rw [show collect f (n + 1) held = held by simp [collect, he]]
      constructor
      · exact fun hj => ⟨j, hj, 0, Nat.zero_le _, rfl⟩
      · rintro ⟨i, hi, m, -, hs⟩
        exact steps_closed (h.closed_of_fixed he) hi hs
    · rw [show collect f (n + 1) held = collect f n (held ||| f held) by simp [collect, he],
        ih (held ||| f held)]
      constructor
      · rintro ⟨k, hk, m, hm, hs⟩
        rw [Nat.testBit_or, Bool.or_eq_true] at hk
        obtain hk | hk := hk
        · exact ⟨k, hk, m, Nat.le_succ_of_le hm, hs⟩
        · obtain ⟨i, hi, hik⟩ := (h held k).1 hk
          exact ⟨i, hi, m + 1, Nat.succ_le_succ hm, k, hik, hs⟩
      · rintro ⟨i, hi, m, hm, hs⟩
        cases m with
        | zero => exact ⟨i, by rw [Nat.testBit_or, hi, Bool.true_or], 0, Nat.zero_le n, hs⟩
        | succ m =>
          obtain ⟨k, hik, hs⟩ := hs
          refine ⟨k, ?_, m, Nat.le_of_succ_le_succ hm, hs⟩
          rw [Nat.testBit_or, (h held k).2 ⟨i, hi, hik⟩, Bool.or_true]

def missing (n held : Nat) : Nat :=
  (List.range (n + 1)).countP fun i => !held.testBit i

theorem countP_lt_of_imp {p q : Nat → Bool} {xs : List Nat} (h : ∀ x, p x = true → q x = true)
    {x : Nat} (hx : x ∈ xs) (hq : q x = true) (hp : p x = false) : xs.countP p < xs.countP q := by
  induction xs with
  | nil => cases hx
  | cons y xs ih =>
    have hle : xs.countP p ≤ xs.countP q := List.countP_mono_left fun z _ => h z
    rw [List.countP_cons, List.countP_cons]
    obtain rfl | hx := List.mem_cons.1 hx
    · simp [hp, hq]
      omega
    · have := ih hx
      by_cases hy : p y = true
      · simp [hy, h y hy]
        omega
      · simp only [hy, Bool.false_eq_true, if_false]
        split <;> omega

/-- A set that grows by positions up to `n` alone is complete after as many rounds as it lacks. -/
theorem collect_fixed {f : Nat → Nat} {n : Nat}
    (hf : ∀ held j, (f held).testBit j = true → j ≤ n ∨ held.testBit j = true) (m held : Nat)
    (hm : missing n held ≤ m) : collect f m held ||| f (collect f m held) = collect f m held := by
  induction m generalizing held with
  | zero =>
    refine Nat.eq_of_testBit_eq fun j => ?_
    rw [collect, Nat.testBit_or]
    cases hj : (f held).testBit j with
    | false => rw [Bool.or_false]
    | true =>
      rw [Bool.or_true]
      obtain hle | hh := hf held j hj
      · have h0 := List.countP_eq_zero.1 (Nat.le_zero.1 hm) j
          (List.mem_range.2 (Nat.lt_succ_of_le hle))
        simpa using h0
      · exact hh.symm
  | succ m ih =>
    by_cases he : held ||| f held = held
    · rw [show collect f (m + 1) held = held by simp [collect, he], he]
    · rw [show collect f (m + 1) held = collect f m (held ||| f held) by simp [collect, he]]
      refine ih (held ||| f held) ?_
      obtain ⟨j, hj⟩ := Nat.exists_testBit_ne_of_ne he
      rw [Nat.testBit_or] at hj
      have hh : held.testBit j = false := by
        cases h : held.testBit j with
        | false => rfl
        | true => simp [h] at hj
      have hg : (f held).testBit j = true := by
        cases h : (f held).testBit j with
        | true => rfl
        | false => simp [h] at hj
      have hle : j ≤ n := by
        obtain hle | h := hf held j hg
        · exact hle
        · rw [hh] at h
          cases h
      have hlt : missing n (held ||| f held) < missing n held :=
        countP_lt_of_imp (x := j)
          (by intro x; simp only [Nat.testBit_or]; cases held.testBit x <;> simp)
          (List.mem_range.2 (Nat.lt_succ_of_le hle)) (by simp [hh]) (by simp [hg])
      omega

theorem Moves.star {R : Nat → Nat → Prop} {f : Nat → Nat} (h : Moves R f) {n : Nat}
    (hR : ∀ i j, R i j → j ≤ n ∨ i = j) :
    Moves (fun i j => ∃ m, Steps R m i j) (collect f (n + 1)) := by
  intro held j
  constructor
  · intro hj
    obtain ⟨i, hi, m, -, hs⟩ := (h.upTo (n + 1) held j).1 hj
    exact ⟨i, hi, m, hs⟩
  · rintro ⟨i, hi, m, hs⟩
    refine steps_closed (S := fun j => (collect f (n + 1) held).testBit j = true)
      (h.closed_of_fixed (collect_fixed (n := n) (fun held j hj => ?_) (n + 1) held ?_))
      ((h.upTo (n + 1) held i).2 ⟨i, hi, 0, Nat.zero_le _, rfl⟩) hs
    · obtain ⟨i, hi, hr⟩ := (h held j).1 hj
      obtain hle | rfl := hR i j hr
      · exact .inl hle
      · exact .inr hi
    · exact Nat.le_trans List.countP_le_length (by simp)

theorem Regular.end_le_of_matches {text : Array Char} {r : Regular} {i j : Nat}
    (h : r.Matches text i j) : j ≤ text.size ∨ i = j := by
  induction r generalizing i j with
  | empty => exact .inr h
  | char s =>
    obtain ⟨rfl, c, hc, -⟩ := h
    exact .inl (Array.getElem?_eq_some_iff.1 hc).1
  | anchor a => exact .inr h.1
  | seq r s ihr ihs =>
    obtain ⟨k, hr, hs⟩ := h
    obtain hle | rfl := ihs hs
    · exact .inl hle
    · exact ihr hr
  | alt r s ihr ihs => exact h.elim ihr ihs
  | loop least most greedy r ih =>
    obtain ⟨n, -, -, hs⟩ := h
    refine steps_closed (S := fun j => j ≤ text.size ∨ i = j) (fun k j hk hr => ?_) (.inr rfl) hs
    obtain hle | rfl := ih hr
    · exact .inl hle
    · exact hk

theorem Steps.split {R : Nat → Nat → Prop} {m n i j : Nat} (h : Steps R (m + n) i j) :
    ∃ k, Steps R m i k ∧ Steps R n k j := by
  induction m generalizing i with
  | zero => exact ⟨i, rfl, by simpa using h⟩
  | succ m ih =>
    rw [Nat.succ_add] at h
    obtain ⟨l, hl, hs⟩ := h
    obtain ⟨k, hk, hs⟩ := ih hs
    exact ⟨k, ⟨l, hl, hk⟩, hs⟩

/-- Rounds of a loop as its code has them: the least number, and then some more. -/
theorem Regular.matches_loop_iff {text : Array Char} {least : Nat} {most : Option Nat}
    {greedy : Bool} {r : Regular} {i j : Nat} :
    (Regular.loop least most greedy r).Matches text i j ↔
      ∃ k, Steps (r.Matches text) least i k ∧
        ∃ n, (∀ m ∈ most, least + n ≤ m) ∧ Steps (r.Matches text) n k j := by
  constructor
  · rintro ⟨n, hn, hm, hs⟩
    obtain ⟨n, rfl⟩ := Nat.exists_eq_add_of_le hn
    obtain ⟨k, hik, hkj⟩ := hs.split
    exact ⟨k, hik, n, hm, hkj⟩
  · rintro ⟨k, hik, n, hm, hkj⟩
    exact ⟨least + n, Nat.le_add_right _ _, hm, hik.trans hkj⟩

theorem Regular.moves_reach (text : Array Char) (r : Regular) (hr : r.Sound = true) :
    Moves (r.Matches text) (r.walk text).reach := by
  induction r with
  | empty => exact fun held j => by simp [Regular.walk, Walk.reach, Matches]
  | char s =>
    refine Moves.step fun i => ?_
    rw [testBit_positions, Array.getElem?_toList, Option.any_eq_true]
  | anchor a => exact Moves.keep fun i => by rw [a.testBit_positions]
  | seq r s ihr ihs =>
    rw [Sound, Bool.and_eq_true] at hr
    exact (ihr hr.1).comp (ihs hr.2)
  | alt r s ihr ihs =>
    rw [Sound, Bool.and_eq_true] at hr
    exact (ihr hr.1).or (ihs hr.2)
  | loop least most greedy r ih =>
    rw [Sound, Bool.and_eq_true] at hr
    have hm := ih hr.2
    cases most with
    | some most =>
      have hle : least ≤ most := by simpa using hr.1
      refine ((hm.steps least).comp (hm.upTo (most - least))).congr fun i j => ?_
      simp [matches_loop_iff, Nat.le_sub_iff_add_le' hle]
    | none =>
      have hend (i j : Nat) (h : r.Matches text i j) := Regular.end_le_of_matches h
      refine ((hm.steps least).comp (hm.star hend)).congr fun i j => ?_
      simp [matches_loop_iff]

theorem Regular.occurs_iff {r : Regular} (hr : r.Sound = true) (text : Array Char) :
    r.occurs text = true ↔ ∃ i j, i ≤ text.size ∧ r.Matches text i j := by
  rw [occurs, bne_iff_ne]
  constructor
  · intro h
    obtain ⟨j, hj⟩ := Nat.exists_testBit_of_ne_zero h
    obtain ⟨i, hi, hm⟩ := (r.moves_reach text hr _ j).1 hj
    rw [testBit_below, decide_eq_true_eq] at hi
    exact ⟨i, j, Nat.le_of_lt_succ hi, hm⟩
  · rintro ⟨i, j, hi, hm⟩ h
    have hj := (r.moves_reach text hr (below (text.size + 1)) j).2
      ⟨i, by rw [testBit_below]; simpa using Nat.lt_succ_of_le hi, hm⟩
    rw [h, Nat.zero_testBit] at hj
    cases hj

end AnswerGrading.Regex
