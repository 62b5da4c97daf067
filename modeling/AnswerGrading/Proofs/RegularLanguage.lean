import AnswerGrading.Regex.Expression
import Mathlib.Computability.Language

namespace AnswerGrading.Regex

def Between (L : Language Char) (text : List Char) (i j : Nat) : Prop :=
  ∃ u w v, text = u ++ (w ++ v) ∧ u.length = i ∧ i + w.length = j ∧ w ∈ L

variable {L M : Language Char} {text : List Char}

theorem Between.le_length {i j : Nat} (h : Between L text i j) : j ≤ text.length := by
  obtain ⟨u, w, v, rfl, rfl, rfl, -⟩ := h
  simp

theorem between_one_iff {i j : Nat} (hi : i ≤ text.length) : Between 1 text i j ↔ i = j := by
  constructor
  · rintro ⟨u, w, v, -, -, rfl, hw⟩
    rw [(Language.mem_one w).1 hw, List.length_nil, Nat.add_zero]
  · rintro rfl
    refine ⟨text.take i, [], text.drop i, ?_, ?_, ?_, Language.nil_mem_one⟩
    · rw [List.nil_append, List.take_append_drop]
    · rw [List.length_take, Nat.min_eq_left hi]
    · rfl

theorem between_mul_iff {i j : Nat} :
    Between (L * M) text i j ↔ ∃ k, Between L text i k ∧ Between M text k j := by
  constructor
  · rintro ⟨u, w, v, ht, hu, hj, hw⟩
    obtain ⟨a, ha, b, hb, rfl⟩ := Language.mem_mul.1 hw
    refine ⟨i + a.length, ⟨u, a, b ++ v, ?_, hu, rfl, ha⟩, u ++ a, b, v, ?_, ?_, ?_, hb⟩
    · rw [ht, List.append_assoc]
    · rw [ht, List.append_assoc, List.append_assoc]
    · rw [List.length_append, hu]
    · rw [← hj, List.length_append, Nat.add_assoc]
  · rintro ⟨k, ⟨u, a, v, ht, hu, hk, ha⟩, u', b, v', ht', hu', hj, hb⟩
    have he : u ++ a ++ v = u' ++ (b ++ v') := by rw [List.append_assoc, ← ht, ← ht']
    obtain ⟨-, rfl⟩ := List.append_inj he (by rw [List.length_append, hu, hk, hu'])
    refine ⟨u, a ++ b, v', ?_, hu, ?_, Language.append_mem_mul ha hb⟩
    · rw [ht, List.append_assoc]
    · rw [List.length_append, ← Nat.add_assoc, hk, hj]

theorem between_add_iff {i j : Nat} :
    Between (L + M) text i j ↔ Between L text i j ∨ Between M text i j := by
  constructor
  · rintro ⟨u, w, v, ht, hu, hj, hw | hw⟩
    · exact .inl ⟨u, w, v, ht, hu, hj, hw⟩
    · exact .inr ⟨u, w, v, ht, hu, hj, hw⟩
  · rintro (⟨u, w, v, ht, hu, hj, hw⟩ | ⟨u, w, v, ht, hu, hj, hw⟩)
    · exact ⟨u, w, v, ht, hu, hj, .inl hw⟩
    · exact ⟨u, w, v, ht, hu, hj, .inr hw⟩

theorem steps_between_iff {n i j : Nat} (hi : i ≤ text.length) :
    Steps (Between L text) n i j ↔ Between (L ^ n) text i j := by
  induction n generalizing i with
  | zero => rw [pow_zero, between_one_iff hi, Steps]
  | succ n ih =>
      rw [pow_succ', between_mul_iff, Steps]
      exact exists_congr fun k => and_congr_right fun h => ih h.le_length

theorem steps_congr {R S : Nat → Nat → Prop} {n i j m : Nat} (hi : i ≤ m)
    (hle : ∀ k l, S k l → l ≤ m) (h : ∀ k l, k ≤ m → (R k l ↔ S k l)) :
    Steps R n i j ↔ Steps S n i j := by
  induction n generalizing i with
  | zero => rfl
  | succ n ih =>
      refine exists_congr fun k => ?_
      rw [h i k hi]
      exact and_congr_right fun hs => ih (hle i k hs)

namespace Regular

def AnchorFree : Regular → Bool
  | .empty => true
  | .char _ => true
  | .anchor _ => false
  | .seq r s => r.AnchorFree && s.AnchorFree
  | .alt r s => r.AnchorFree && s.AnchorFree
  | .loop _ _ _ r => r.AnchorFree

def language : Regular → Language Char
  | .empty => 1
  | .char s => {w | ∃ c, w = [c] ∧ s.mem c = true}
  | .anchor _ => 0
  | .seq r s => r.language * s.language
  | .alt r s => r.language + s.language
  | .loop least most _ r => {w | ∃ n, least ≤ n ∧ (∀ m ∈ most, n ≤ m) ∧ w ∈ r.language ^ n}

theorem matches_char_iff {s : CharSet} {text : Array Char} {i j : Nat} :
    (Regular.char s).Matches text i j ↔ Between (Regular.char s).language text.toList i j := by
  constructor
  · rintro ⟨rfl, c, hc, hs⟩
    obtain ⟨hi, hget⟩ := Array.getElem?_eq_some_iff.1 hc
    refine ⟨text.toList.take i, [c], text.toList.drop (i + 1), ?_, ?_, rfl, c, rfl, hs⟩
    · rw [List.singleton_append, ← hget, ← Array.getElem_toList,
        List.getElem_cons_drop, List.take_append_drop]
    · simp only [List.length_take, Array.length_toList]
      omega
  · rintro ⟨u, w, v, ht, rfl, rfl, c, rfl, hs⟩
    refine ⟨rfl, c, ?_, hs⟩
    rw [← Array.getElem?_toList, ht]
    simp

theorem matches_iff {r : Regular} (hr : r.AnchorFree = true) {text : Array Char} {i j : Nat}
    (hi : i ≤ text.size) : r.Matches text i j ↔ Between r.language text.toList i j := by
  rw [← Array.length_toList] at hi
  induction r generalizing i j with
  | empty => exact (between_one_iff hi).symm
  | char s => exact matches_char_iff
  | anchor a => cases hr
  | seq r s ihr ihs =>
      rw [AnchorFree, Bool.and_eq_true] at hr
      rw [language, between_mul_iff, Matches]
      refine exists_congr fun k => ?_
      rw [ihr hr.1 hi]
      exact and_congr_right fun h => ihs hr.2 h.le_length
  | alt r s ihr ihs =>
      rw [AnchorFree, Bool.and_eq_true] at hr
      rw [language, between_add_iff, Matches, ihr hr.1 hi, ihs hr.2 hi]
  | loop least most greedy r ih =>
      have hsteps (n : Nat) : Steps (r.Matches text) n i j ↔
          Between (r.language ^ n) text.toList i j := by
        rw [← steps_between_iff hi]
        exact steps_congr hi (fun k l h => h.le_length) fun k l hk => ih hr hk
      rw [Matches, language]
      constructor
      · rintro ⟨n, hl, hm, hs⟩
        obtain ⟨u, w, v, ht, hu, hj, hw⟩ := (hsteps n).1 hs
        exact ⟨u, w, v, ht, hu, hj, n, hl, hm, hw⟩
      · rintro ⟨u, w, v, ht, hu, hj, n, hl, hm, hw⟩
        exact ⟨n, hl, hm, (hsteps n).2 ⟨u, w, v, ht, hu, hj, hw⟩⟩

def whole (r : Regular) : Regular :=
  .seq (.anchor .textStart) (.seq r (.anchor .textEnd))

theorem exists_matches_whole_iff {r : Regular} (hr : r.AnchorFree = true) (text : Array Char) :
    (∃ i j, i ≤ text.size ∧ r.whole.Matches text i j) ↔ text.toList ∈ r.language := by
  constructor
  · rintro ⟨i, j, hi, k, ⟨rfl, hstart⟩, l, hm, rfl, hend⟩
    obtain rfl : i = 0 := by simpa [Anchor.holds] using hstart
    obtain rfl : l = text.size := by simpa [Anchor.holds] using hend
    obtain ⟨u, w, v, ht, hu, hj, hw⟩ := (matches_iff hr hi).1 hm
    have hl := congrArg List.length ht
    simp only [List.length_append, Array.length_toList] at hl
    obtain rfl := List.length_eq_zero_iff.1 hu
    obtain rfl := List.length_eq_zero_iff.1 (show v.length = 0 by omega)
    rwa [ht, List.nil_append, List.append_nil]
  · intro h
    refine ⟨0, text.size, Nat.zero_le _, 0, ⟨rfl, rfl⟩, text.size, ?_, rfl, ?_⟩
    · refine (matches_iff hr (Nat.zero_le _)).2 ⟨[], text.toList, [], ?_, rfl, ?_, h⟩
      · simp
      · simp
    · simp [Anchor.holds]

theorem exists_matches_ends_iff (text : Array Char) :
    (∃ i j, i ≤ text.size ∧
      (Regular.seq (.anchor .textStart) (.anchor .textEnd)).Matches text i j) ↔
      text.toList ∈ (1 : Language Char) := by
  rw [Language.mem_one, ← List.length_eq_zero_iff, Array.length_toList]
  constructor
  · rintro ⟨i, j, -, k, ⟨rfl, hstart⟩, -, hend⟩
    obtain rfl : i = 0 := by simpa [Anchor.holds] using hstart
    exact (eq_of_beq hend).symm
  · intro h
    exact ⟨0, 0, Nat.zero_le _, 0, ⟨rfl, rfl⟩, rfl, by simp [Anchor.holds, h]⟩

end Regular

def wordsOver (s : CharSet) : Language Char :=
  {w | ∀ c ∈ w, s.mem c = true}

theorem mem_char_pow_iff {s : CharSet} {n : Nat} {w : List Char} :
    w ∈ (Regular.char s).language ^ n ↔ w.length = n ∧ w ∈ wordsOver s := by
  induction n generalizing w with
  | zero =>
      rw [pow_zero, Language.mem_one, List.length_eq_zero_iff]
      exact ⟨fun h => ⟨h, by rw [h]; exact fun c hc => nomatch hc⟩, And.left⟩
  | succ n ih =>
      rw [pow_succ', Language.mem_mul]
      constructor
      · rintro ⟨_, ⟨c, rfl, hc⟩, v, hv, rfl⟩
        obtain ⟨hl, hs⟩ := ih.1 hv
        exact ⟨by simp [hl], List.forall_mem_cons.2 ⟨hc, hs⟩⟩
      · rintro ⟨hl, hs⟩
        cases w with
        | nil => cases hl
        | cons c w =>
            obtain ⟨hc, hw⟩ := List.forall_mem_cons.1 hs
            exact ⟨[c], ⟨c, rfl, hc⟩, w, ih.2 ⟨Nat.succ.inj hl, hw⟩, rfl⟩

namespace Expression

/-- The expression is regular, holds no anchor, and its language is `L`. -/
def Denotes (e : Expression) (L : Language Char) : Prop :=
  ∃ r, e.regular? [] = some r ∧ r.AnchorFree = true ∧ r.Sound = true ∧ r.language = L

theorem denotes_empty : Expression.empty.Denotes 1 :=
  ⟨.empty, rfl, rfl, rfl, rfl⟩

theorem denotes_one (c : Char) : (Expression.char (.one c)).Denotes {[c]} := by
  refine ⟨.char (.one c), rfl, rfl, rfl, ?_⟩
  ext w
  constructor
  · rintro ⟨d, rfl, hd⟩
    exact congrArg (fun d => [d]) (eq_of_beq hd)
  · intro hw
    exact ⟨c, hw, beq_self_eq_true c⟩

theorem Denotes.seq {e f : Expression} (he : e.Denotes L) (hf : f.Denotes M) :
    (Expression.seq e f).Denotes (L * M) := by
  obtain ⟨r, hr, har, hsr, rfl⟩ := he
  obtain ⟨s, hs, has, hss, rfl⟩ := hf
  refine ⟨.seq r s, ?_, ?_, ?_, rfl⟩
  · rw [regular?, hr, hs]
    rfl
  · rw [Regular.AnchorFree, har, has, Bool.and_true]
  · rw [Regular.Sound, hsr, hss, Bool.and_true]

theorem Denotes.alt {e f : Expression} (he : e.Denotes L) (hf : f.Denotes M) :
    (Expression.alt e f).Denotes (L + M) := by
  obtain ⟨r, hr, har, hsr, rfl⟩ := he
  obtain ⟨s, hs, has, hss, rfl⟩ := hf
  refine ⟨.alt r s, ?_, ?_, ?_, rfl⟩
  · rw [regular?, hr, hs]
    rfl
  · rw [Regular.AnchorFree, har, has, Bool.and_true]
  · rw [Regular.Sound, hsr, hss, Bool.and_true]

theorem Denotes.alone {e : Expression} (h : e.Denotes L) : e.alone.Denotes L := by
  unfold Expression.alone
  split
  · rw [← mul_one L]
    exact h.seq denotes_empty
  · exact h

theorem denotes_loop_char (least : Nat) (greedy : Bool) (s : CharSet) :
    (Expression.loop least none greedy (.char s)).Denotes
      {w | least ≤ w.length ∧ w ∈ wordsOver s} := by
  refine ⟨.loop least none greedy (.char s), rfl, rfl, rfl, ?_⟩
  ext w
  constructor
  · rintro ⟨n, hl, -, hw⟩
    obtain ⟨rfl, hs⟩ := mem_char_pow_iff.1 hw
    exact ⟨hl, hs⟩
  · rintro ⟨hl, hs⟩
    exact ⟨w.length, hl, (fun m hm => nomatch hm), mem_char_pow_iff.2 ⟨rfl, hs⟩⟩

theorem denotes_sequence {es : List Expression} {Ls : List (Language Char)}
    (h : List.Forall₂ Denotes es Ls) : (sequence es).Denotes Ls.prod := by
  induction h with
  | nil => exact denotes_empty
  | @cons e L es Ls he hes ih =>
      cases hes with
      | nil => rwa [List.prod_singleton]
      | cons hf hfs =>
          rw [List.prod_cons]
          exact he.seq ih

theorem regular?_whole {e : Expression} {r : Regular} (h : e.regular? [] = some r) :
    (Expression.seq (.anchor .textStart) (.seq e (.anchor .textEnd))).regular? [] =
      some r.whole := by
  simp only [regular?, h]
  rfl

end Expression

end AnswerGrading.Regex
