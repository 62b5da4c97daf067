import AnswerGrading.Proofs.EngineMeaning
import AnswerGrading.Proofs.MachineCode
import AnswerGrading.Proofs.PositionalExpressions
import AnswerGrading.Proofs.ForkedTexts

/-!
Search for expressions whose matches depend on positions alone. A match that is found is one, and
the search fails only where there is none: it may give up, but it never misses a match.
-/

namespace AnswerGrading.Regex

theorem Outcome.orRetry_eq_found {o : Outcome} {next : Nat → Outcome} {q : Place} {m : Nat}
    (h : o.orRetry next = .found q m) : o = .found q m ∨ ∃ n, next n = .found q m := by
  cases o with
  | found => exact .inl h
  | failed n =>
      cases n with
      | zero => cases h
      | succ n => exact .inr ⟨n, h⟩
  | gaveUp => cases h

theorem Outcome.orRetry_eq_failed {o : Outcome} {next : Nat → Outcome} {m : Nat}
    (h : o.orRetry next = .failed m) : ∃ n, o = .failed (n + 1) ∧ next n = .failed m := by
  cases o with
  | found => cases h
  | failed n =>
      cases n with
      | zero => cases h
      | succ n => exact ⟨n, rfl, h⟩
  | gaveUp => cases h

/-- A body finds only what the relation allows. -/
def Finds (R : Nat → Nat → Prop) (run : Place → Nat → Resume → Outcome) : Prop :=
  ∀ ⦃p : Place⦄ ⦃n : Nat⦄ ⦃next : Resume⦄ ⦃q : Place⦄ ⦃m : Nat⦄, run p n next = .found q m →
    ∃ p' n', R p.position p'.position ∧ next p' n' = .found q m

/-- A body that may go on to some position fails only if what follows it fails, there or, where
nothing is left that could fail, anywhere. -/
def Exhausts (last : Bool) (R : Nat → Nat → Prop) (text : Array Char)
    (run : Place → Nat → Resume → Outcome) : Prop :=
  ∀ ⦃p : Place⦄ ⦃n : Nat⦄ ⦃next : Resume⦄ ⦃m j : Nat⦄, p.position ≤ text.size →
    run p n next = .failed m → R p.position j →
      ∃ p' n' m', (last = false → p'.position = j) ∧ next p' n' = .failed m'

def Inside (R : Nat → Nat → Prop) (text : Array Char) : Prop :=
  ∀ ⦃i j : Nat⦄, R i j → i ≤ text.size → j ≤ text.size

section Loops

variable {R : Nat → Nat → Prop} {text : Array Char} {body : Place → Nat → Resume → Outcome}
  {least : Nat} {most : Option Nat} {greedy progress : Bool} {next : Resume}

/-- Rounds, after those already taken, up to a number at which a loop may stop. -/
def Repeats (R : Nat → Nat → Prop) (least : Nat) (most : Option Nat) (count i j : Nat) : Prop :=
  ∃ n, (least ≤ count + n ∨ most = some (count + n)) ∧ (∀ m ∈ most, count + n ≤ m) ∧ Steps R n i j

theorem Repeats.round {count i k j : Nat} (hi : R i k) (h : Repeats R least most (count + 1) k j) :
    Repeats R least most count i j := by
  obtain ⟨n, hl, hm, hs⟩ := h
  rw [Nat.succ_add_eq_add_succ] at hl hm
  exact ⟨n + 1, hl, hm, k, hi, hs⟩

theorem repeats_optional_iff {i j : Nat} : Repeats R 0 (some 1) 0 i j ↔ R i j ∨ i = j := by
  constructor
  · rintro ⟨n, -, hm, hs⟩
    have hn := hm 1 rfl
    rcases n with _ | _ | n
    · exact .inr hs
    · obtain ⟨k, hk, rfl⟩ := hs
      exact .inl hk
    · omega
  · rintro (h | rfl)
    · exact ⟨1, .inl (Nat.zero_le _), by simp, j, h, rfl⟩
    · exact ⟨0, .inl (Nat.zero_le _), by simp, rfl⟩

theorem loopRounds_found (hbody : Finds R body) {fuel count : Nat} {last : Option Nat} {p q : Place}
    {n m : Nat} (hcount : ∀ k ∈ most, count ≤ k)
    (h : loopRounds body least most greedy progress next fuel count last p n = .found q m) :
    ∃ p' n', Repeats R least most count p.position p'.position ∧ next p' n' = .found q m := by
  induction fuel generalizing count last p n with
  | zero => cases h
  | succ fuel ih =>
      have hdone {n : Nat} (hl : least ≤ count ∨ most = some count) (h : next p n = .found q m) :
          ∃ p' n', Repeats R least most count p.position p'.position ∧ next p' n' = .found q m :=
        ⟨p, n, ⟨0, hl, hcount, rfl⟩, h⟩
      have hagain {n : Nat} (hmost : most ≠ some count)
          (h : body p n (loopRounds body least most greedy progress next fuel (count + 1)
            (some p.position)) = .found q m) :
          ∃ p' n', Repeats R least most count p.position p'.position ∧ next p' n' = .found q m := by
        obtain ⟨p₁, n₁, hr, h⟩ := hbody h
        have hcount₁ : ∀ k ∈ most, count + 1 ≤ k := fun k hk =>
          Nat.lt_of_le_of_ne (hcount k hk) fun he => hmost (he ▸ hk)
        obtain ⟨p', n', hs, hn⟩ := ih hcount₁ h
        exact ⟨p', n', hs.round hr, hn⟩
      rw [loopRounds] at h
      dsimp only at h
      split at h
      · rename_i hm
        exact hdone (.inr hm) h
      · rename_i hm
        split at h
        · cases h
        · split at h
          · exact hagain hm h
          · rename_i hl
            have hl := Nat.le_of_not_lt hl
            split at h
            · rcases Outcome.orRetry_eq_found h with h | ⟨n, h⟩
              · exact hagain hm h
              · exact hdone (.inl hl) h
            · rcases Outcome.orRetry_eq_found h with h | ⟨n, h⟩
              · exact hdone (.inl hl) h
              · exact hagain hm h

/-- Rounds that a loop may take from the one with the given number on: where it asks for progress,
no round past the least number stays where it is. -/
inductive Rounds (R : Nat → Nat → Prop) (least : Nat) (most : Option Nat) (progress : Bool) :
    Nat → Nat → Nat → Prop
  | done {count i : Nat} (h : most = some count ∨ least ≤ count) :
      Rounds R least most progress count i i
  | round {count i k j : Nat} (hm : most ≠ some count) (hr : R i k)
      (hp : progress = true → least ≤ count → i ≠ k) :
      Rounds R least most progress (count + 1) k j → Rounds R least most progress count i j

theorem loopRounds_failed (hbody : Exhausts false R text body) (hR : Inside R text)
    {fuel count : Nat} {last : Option Nat} {p : Place} {n m j : Nat} (hp : p.position ≤ text.size)
    (hlast : progress = true → least < count → last ≠ some p.position)
    (hr : Rounds R least most progress count p.position j)
    (h : loopRounds body least most greedy progress next fuel count last p n = .failed m) :
    ∃ p' n' m', p'.position = j ∧ next p' n' = .failed m' := by
  induction fuel generalizing count last p n m with
  | zero => cases h
  | succ fuel ih =>
      have hmoved : ¬(progress && decide (least < count) && last == some p.position) = true := by
        simp only [Bool.and_eq_true, decide_eq_true_eq, beq_iff_eq]
        rintro ⟨⟨hprogress, hl⟩, he⟩
        exact hlast hprogress hl he
      rw [loopRounds] at h
      dsimp only at h
      rw [if_neg hmoved] at h
      cases hr with
      | done hd =>
          split at h
          · exact ⟨p, n, m, rfl, h⟩
          · rename_i hm
            have hl := hd.resolve_left hm
            rw [if_neg (Nat.not_lt.2 hl)] at h
            split at h
            · obtain ⟨n', -, h⟩ := Outcome.orRetry_eq_failed h
              exact ⟨p, n', m, rfl, h⟩
            · obtain ⟨n', h, -⟩ := Outcome.orRetry_eq_failed h
              exact ⟨p, n, n' + 1, rfl, h⟩
      | @round _ _ k _ hm hstep hprogress hrest =>
          have hagain {n m : Nat}
              (h : body p n (loopRounds body least most greedy progress next fuel (count + 1)
                (some p.position)) = .failed m) :
              ∃ p' n' m', p'.position = j ∧ next p' n' = .failed m' := by
            obtain ⟨p₁, n₁, m₁, hposition, h⟩ := hbody hp h hstep
            cases hposition rfl
            refine ih (hR hstep hp) (fun hg hl he => ?_) hrest h
            exact hprogress hg (Nat.le_of_lt_succ hl) (Option.some.inj he)
          rw [if_neg hm] at h
          split at h
          · exact hagain h
          · split at h
            · obtain ⟨n', h, -⟩ := Outcome.orRetry_eq_failed h
              exact hagain h
            · obtain ⟨n', -, h⟩ := Outcome.orRetry_eq_failed h
              exact hagain h

theorem exists_steps_ne {n i j : Nat} (h : Steps R n i j) :
    ∃ m, Steps (fun i j => R i j ∧ i ≠ j) m i j := by
  induction n generalizing i with
  | zero => exact ⟨0, h⟩
  | succ n ih =>
      obtain ⟨k, hk, h⟩ := h
      obtain ⟨m, hm⟩ := ih h
      by_cases hne : i = k
      · subst hne
        exact ⟨m, hm⟩
      · exact ⟨m + 1, k, ⟨hk, hne⟩, hm⟩

theorem rounds_of_steps {k count i j : Nat} (hl : least ≤ count + k ∨ most = some (count + k))
    (hm : ∀ l ∈ most, count + k ≤ l) (hprogress : progress = false) (h : Steps R k i j) :
    Rounds R least most progress count i j := by
  induction k generalizing count i with
  | zero =>
      cases h
      exact .done hl.symm
  | succ k ih =>
      obtain ⟨l, hi, h⟩ := h
      refine .round (fun he => ?_) hi (by simp [hprogress]) (ih ?_ ?_ h)
      · have hle := hm count he
        omega
      · rwa [Nat.succ_add_eq_add_succ]
      · rwa [Nat.succ_add_eq_add_succ]

theorem rounds_of_progress {k count i j : Nat} (hcount : least ≤ count)
    (h : Steps (fun i j => R i j ∧ i ≠ j) k i j) : Rounds R least none true count i j := by
  induction k generalizing count i with
  | zero =>
      cases h
      exact .done (.inr hcount)
  | succ k ih =>
      obtain ⟨l, ⟨hi, hne⟩, h⟩ := h
      exact .round nofun hi (fun _ _ => hne) (ih (Nat.le_succ_of_le hcount) h)

theorem rounds_of_least {k count i j l : Nat} (hcount : count + k = least) (h : Steps R k i l)
    (hl : Rounds R least none true least l j) : Rounds R least none true count i j := by
  induction k generalizing count i with
  | zero =>
      cases h
      cases hcount
      exact hl
  | succ k ih =>
      obtain ⟨x, hi, h⟩ := h
      refine .round nofun hi (fun _ hle => ?_) (ih (by omega) h)
      omega

theorem Repeats.rounds {i j : Nat} (h : Repeats R least most 0 i j)
    (hprogress : progress = true → most = none) : Rounds R least most progress 0 i j := by
  obtain ⟨n, hl, hm, h⟩ := h
  cases progress with
  | false => exact rounds_of_steps hl hm rfl h
  | true =>
      cases hprogress rfl
      rw [Nat.zero_add] at hl
      obtain ⟨k, rfl⟩ := Nat.exists_eq_add_of_le (hl.resolve_right nofun)
      obtain ⟨l, hl, h⟩ := Steps.split h
      obtain ⟨k', h⟩ := exists_steps_ne h
      exact rounds_of_least (Nat.zero_add least) hl (rounds_of_progress (Nat.le_refl _) h)

end Loops

section Plans

variable {R S : Nat → Nat → Prop} {text : Array Char} {run : Place → Nat → Resume → Outcome}
  {last : Bool} {a b : Plan}

theorem Finds.mono (h : Finds R run) (hRS : ∀ i j, R i j → S i j) : Finds S run := by
  intro p n next q m hn
  obtain ⟨p', n', hr, hn⟩ := h hn
  exact ⟨p', n', hRS _ _ hr, hn⟩

theorem Exhausts.anti (h : Exhausts last R text run) (hSR : ∀ i j, S i j → R i j) :
    Exhausts last S text run :=
  fun _ _ _ _ _ hp hn hs => h hp hn (hSR _ _ hs)

namespace Plan

theorem skip_finds : Finds Eq (Plan.skip.run text) :=
  fun _ _ _ _ _ h => ⟨_, _, rfl, h⟩

theorem skip_exhausts : Exhausts last Eq text (Plan.skip.run text) :=
  fun _ _ _ _ _ _ h hj => ⟨_, _, _, fun _ => hj, h⟩

theorem commit_finds {r : Regular} (hs : r.Sound = true) :
    Finds (r.Matches text) ((Plan.commit r.machine).run text) := by
  intro p n next q m h
  rw [Plan.run] at h
  split at h
  · rename_i i hi
    exact ⟨p.move i, n, Regular.matches_of_preferred? hs hi, h⟩
  · cases h

/-- Where another end of a match could be asked for, all matches have to end together. -/
theorem commit_exhausts {r : Regular} (hs : r.Sound = true)
    (hlast : last = false → ∀ i j k, r.Matches text i j → r.Matches text i k → j = k) :
    Exhausts last (r.Matches text) text ((Plan.commit r.machine).run text) := by
  intro p n next m j hp h hj
  rw [Plan.run] at h
  split at h
  · rename_i i hi
    refine ⟨p.move i, n, m, fun hl => ?_, h⟩
    exact hlast hl _ _ _ (Regular.matches_of_preferred? hs hi) hj
  · rename_i hnone
    exact absurd hj (Regular.not_matches_of_preferred? hs hp hnone j)

theorem wordBoundary_finds (negated : Bool) :
    Finds ((Expression.wordBoundary negated).Matches text)
      ((Plan.wordBoundary negated).run text) := by
  intro p n next q m h
  rw [Plan.run] at h
  split at h
  · rename_i hb
    exact ⟨p, n, ⟨rfl, hb⟩, h⟩
  · cases h

theorem wordBoundary_exhausts (negated : Bool) :
    Exhausts last ((Expression.wordBoundary negated).Matches text) text
      ((Plan.wordBoundary negated).run text) := by
  rintro p n next m j - h ⟨hj, hb⟩
  rw [Plan.run, if_pos hb] at h
  exact ⟨p, n, m, fun _ => hj, h⟩

theorem searchStart_finds : Finds (Expression.searchStart.Matches text)
    (Plan.searchStart.run text) := by
  intro p n next q m h
  rw [Plan.run] at h
  split at h
  · rename_i hp
    exact ⟨p, n, ⟨rfl, hp⟩, h⟩
  · cases h

theorem searchStart_exhausts : Exhausts last (Expression.searchStart.Matches text) text
    (Plan.searchStart.run text) := by
  rintro p n next m j - h ⟨hj, hp⟩
  rw [Plan.run, if_pos hp] at h
  exact ⟨p, n, m, fun _ => hj, h⟩

theorem seq_finds (ha : Finds R (a.run text)) (hb : Finds S (b.run text)) :
    Finds (fun i j => ∃ k, R i k ∧ S k j) ((Plan.seq a b).run text) := by
  intro p n next q m h
  obtain ⟨p₁, n₁, hr, h⟩ := ha h
  obtain ⟨p₂, n₂, hs, h⟩ := hb h
  exact ⟨p₂, n₂, ⟨_, hr, hs⟩, h⟩

theorem seq_exhausts (hR : Inside R text) (ha : Exhausts false R text (a.run text))
    (hb : Exhausts last S text (b.run text)) :
    Exhausts last (fun i j => ∃ k, R i k ∧ S k j) text ((Plan.seq a b).run text) := by
  rintro p n next m j hp h ⟨k, hr, hs⟩
  obtain ⟨p₁, n₁, m₁, hk, h⟩ := ha hp h hr
  cases hk rfl
  exact hb (hR hr hp) h hs

theorem alt_finds (ha : Finds R (a.run text)) (hb : Finds S (b.run text)) :
    Finds (fun i j => R i j ∨ S i j) ((Plan.alt a b).run text) := by
  intro p n next q m h
  rcases Outcome.orRetry_eq_found h with h | ⟨n, h⟩
  · obtain ⟨p', n', hr, h⟩ := ha h
    exact ⟨p', n', .inl hr, h⟩
  · obtain ⟨p', n', hs, h⟩ := hb h
    exact ⟨p', n', .inr hs, h⟩

theorem alt_exhausts (ha : Exhausts last R text (a.run text))
    (hb : Exhausts last S text (b.run text)) :
    Exhausts last (fun i j => R i j ∨ S i j) text ((Plan.alt a b).run text) := by
  intro p n next m j hp h hj
  obtain ⟨n', hfirst, hsecond⟩ := Outcome.orRetry_eq_failed h
  rcases hj with hr | hs
  · exact ha hp hfirst hr
  · exact hb hp hsecond hs

theorem capture_finds (g : Nat) (ha : Finds R (a.run text)) :
    Finds R ((Plan.capture g a).run text) := by
  intro p n next q m h
  obtain ⟨p', n', hr, h⟩ := ha h
  exact ⟨p'.exit g, n', hr, h⟩

theorem capture_exhausts (g : Nat) (ha : Exhausts last R text (a.run text)) :
    Exhausts last R text ((Plan.capture g a).run text) := by
  intro p n next m j hp h hj
  obtain ⟨p', n', m', hposition, h⟩ := ha (p := p.enter g) hp h hj
  exact ⟨p'.exit g, n', m', hposition, h⟩

variable (least : Nat) (most : Option Nat) (greedy : Bool) {progress : Bool}

theorem loop_finds (ha : Finds R (a.run text)) :
    Finds (Repeats R least most 0) ((Plan.loop least most greedy progress a).run text) := by
  intro p n next q m h
  exact loopRounds_found ha (fun _ _ => Nat.zero_le _) h

theorem loop_exhausts (hR : Inside R text) (hprogress : progress = true → most = none)
    (ha : Exhausts false R text (a.run text)) :
    Exhausts last (Repeats R least most 0) text
      ((Plan.loop least most greedy progress a).run text) := by
  intro p n next m j hp h hj
  obtain ⟨p', n', m', hj, h⟩ := loopRounds_failed ha hR hp
    (fun _ hlt => absurd hlt (Nat.not_lt_zero _)) (hj.rounds hprogress) h
  exact ⟨p', n', m', fun _ => hj, h⟩

end Plan

end Plans

section Starts

variable {R : Nat → Nat → Prop} {text : Array Char} {plan : Plan} {groups left n m : Nat}

theorem Plan.search_found (hplan : Finds R (plan.run text)) {q : Place}
    (h : plan.search text groups left n = .found q m) : ∃ i j, i ≤ text.size ∧ R i j := by
  induction left generalizing n with
  | zero =>
      obtain ⟨p, _, hr, -⟩ := hplan h
      exact ⟨_, _, Nat.le_refl _, hr⟩
  | succ left ih =>
      rcases Outcome.orRetry_eq_found h with h | ⟨n', h⟩
      · obtain ⟨p, _, hr, -⟩ := hplan h
        exact ⟨_, _, Nat.sub_le _ _, hr⟩
      · exact ih h

theorem Plan.search_failed {last : Bool} (hplan : Exhausts last R text (plan.run text))
    (h : plan.search text groups left n = .failed m) {i : Nat} (hleft : text.size - left ≤ i)
    (hi : i ≤ text.size) (j : Nat) : ¬R i j := by
  intro hr
  induction left generalizing n with
  | zero =>
      obtain rfl := Nat.le_antisymm hi hleft
      obtain ⟨p, n', m', -, h⟩ := hplan hi h hr
      cases h
  | succ left ih =>
      obtain ⟨n', hfirst, hrest⟩ := Outcome.orRetry_eq_failed h
      rcases Nat.eq_or_lt_of_le hleft with he | hlt
      · subst he
        obtain ⟨p, n', m', -, h⟩ := hplan hi hfirst hr
        cases h
      · exact ih hrest (by omega)

end Starts

theorem Regular.sound_of_map_check {α : Type} {r : Regular} {f : Regular → α} {a : α}
    (h : r.check.map f = .ok a) : r.Sound = true ∧ a = f r := by
  obtain ⟨r', hcheck, rfl⟩ := map_eq_ok_iff.1 h
  obtain ⟨hself, hs⟩ := sound_of_check hcheck
  exact ⟨hs, congrArg f (Except.ok.inj (hcheck.symm.trans hself))⟩

namespace Expression

variable {text : Array Char} {referred : List Nat} {e f : Expression} {last : Bool} {p : Plan}

theorem settle_eq_ok {parts : Except Defect Plan} (h : settle referred e last parts = .ok p) :
    (∃ r, e.regular? referred = some r ∧ r.Sound = true ∧ (last = true ∨ e.fixedSize = true) ∧
      p = .commit r.machine) ∨
    ((e.regular? referred).isSome = true → (last || e.fixedSize) = false) ∧ parts = .ok p := by
  unfold settle at h
  split at h
  · rename_i r hr
    split at h
    · rename_i hlast
      obtain ⟨hs, rfl⟩ := Regular.sound_of_map_check h
      exact .inl ⟨r, hr, hs, by simpa using hlast, rfl⟩
    · rename_i hlast
      exact .inr ⟨fun _ => Bool.eq_false_of_not_eq_true hlast, h⟩
  · rename_i hr
    exact .inr ⟨fun hsome => by simp [hr] at hsome, h⟩

theorem matches_loop_iff {least : Nat} {most : Option Nat} {greedy : Bool} {i j : Nat} :
    (loop least most greedy e).Matches text i j ↔ Repeats (e.Matches text) least most 0 i j := by
  simp only [Matches, Repeats, Nat.zero_add]

theorem inside_matches : Inside (e.Matches text) text :=
  fun _ _ => position_le

theorem settle_finds {parts : Except Defect Plan} (h : settle referred e last parts = .ok p)
    (hparts : parts = .ok p → Finds (e.Matches text) (p.run text)) :
    Finds (e.Matches text) (p.run text) := by
  rcases settle_eq_ok h with ⟨r, hr, hs, -, rfl⟩ | ⟨-, h⟩
  · exact (Plan.commit_finds hs).mono fun i j => (matches_iff_of_regular? hr hs).2
  · exact hparts h

theorem settle_exhausts {parts : Except Defect Plan} (h : settle referred e last parts = .ok p)
    (hparts : parts = .ok p → Exhausts last (e.Matches text) text (p.run text)) :
    Exhausts last (e.Matches text) text (p.run text) := by
  rcases settle_eq_ok h with ⟨r, hr, hs, hlast, rfl⟩ | ⟨-, h⟩
  · have hends (hl : last = false) (i j k : Nat) (hj : r.Matches text i j)
        (hk : r.Matches text i k) : j = k := by
      have hf := hlast.resolve_left (by simp [hl])
      have hsize {j : Nat} (hj : r.Matches text i j) :=
        length_eq_of_fixedSize (positional_of_regular? hr) hf ((matches_iff_of_regular? hr hs).2 hj)
      rw [hsize hj, hsize hk]
    exact (Plan.commit_exhausts hs hends).anti fun i j => (matches_iff_of_regular? hr hs).1
  · exact hparts h

theorem plan_finds (hp : e.positional = true) (h : e.plan referred last = .ok p) :
    Finds (e.Matches text) (p.run text) := by
  induction e generalizing last p with
  | empty =>
      cases h
      exact Plan.skip_finds
  | char s =>
      cases h
      exact Plan.commit_finds rfl
  | anchor a =>
      cases h
      exact Plan.commit_finds rfl
  | wordBoundary negated =>
      cases h
      exact Plan.wordBoundary_finds negated
  | seq e f ihe ihf =>
      rw [positional, Bool.and_eq_true] at hp
      refine settle_finds h fun h => ?_
      obtain ⟨a, ha, h⟩ := bind_eq_ok_iff.1 h
      obtain ⟨b, hb, h⟩ := bind_eq_ok_iff.1 h
      cases h
      exact Plan.seq_finds (ihe hp.1 ha) (ihf hp.2 hb)
  | alt e f ihe ihf =>
      rw [positional, Bool.and_eq_true] at hp
      refine settle_finds h fun h => ?_
      obtain ⟨a, ha, h⟩ := bind_eq_ok_iff.1 h
      obtain ⟨b, hb, h⟩ := bind_eq_ok_iff.1 h
      cases h
      exact Plan.alt_finds (ihe hp.1 ha) (ihf hp.2 hb)
  | loop least most greedy e ih =>
      refine settle_finds h fun hparts => ?_
      split at hparts
      · rename_i hbounds
        obtain ⟨rfl, rfl⟩ := hbounds
        obtain ⟨a, ha, hparts⟩ := bind_eq_ok_iff.1 hparts
        cases hparts
        split
        · exact (Plan.alt_finds (ih hp ha) Plan.skip_finds).mono fun i j h =>
            matches_loop_iff.2 (repeats_optional_iff.2 h)
        · exact (Plan.alt_finds Plan.skip_finds (ih hp ha)).mono fun i j h =>
            matches_loop_iff.2 (repeats_optional_iff.2 h.symm)
      · obtain ⟨a, ha, hparts⟩ := bind_eq_ok_iff.1 hparts
        cases hparts
        exact (Plan.loop_finds least most greedy (ih hp ha)).mono fun i j => matches_loop_iff.2
  | capture g e ih =>
      refine settle_finds h fun h => ?_
      obtain ⟨a, ha, h⟩ := bind_eq_ok_iff.1 h
      cases h
      exact Plan.capture_finds g (ih hp ha)
  | restart =>
      cases h
      exact Plan.skip_finds
  | searchStart =>
      cases h
      exact Plan.searchStart_finds
  | _ => cases hp

theorem plan_exhausts (hp : e.positional = true) (h : e.plan referred last = .ok p) :
    Exhausts last (e.Matches text) text (p.run text) := by
  induction e generalizing last p with
  | empty =>
      cases h
      exact Plan.skip_exhausts
  | char s =>
      cases h
      exact Plan.commit_exhausts (r := .char s) rfl fun _ i j k
        (hj : j = i + 1 ∧ _) (hk : k = i + 1 ∧ _) => hj.1.trans hk.1.symm
  | anchor a =>
      cases h
      exact Plan.commit_exhausts (r := .anchor a) rfl fun _ i j k
        (hj : i = j ∧ _) (hk : i = k ∧ _) => hj.1.symm.trans hk.1
  | wordBoundary negated =>
      cases h
      exact Plan.wordBoundary_exhausts negated
  | seq e f ihe ihf =>
      rw [positional, Bool.and_eq_true] at hp
      refine settle_exhausts h fun h => ?_
      obtain ⟨a, ha, h⟩ := bind_eq_ok_iff.1 h
      obtain ⟨b, hb, h⟩ := bind_eq_ok_iff.1 h
      cases h
      exact Plan.seq_exhausts inside_matches (ihe hp.1 ha) (ihf hp.2 hb)
  | alt e f ihe ihf =>
      rw [positional, Bool.and_eq_true] at hp
      refine settle_exhausts h fun h => ?_
      obtain ⟨a, ha, h⟩ := bind_eq_ok_iff.1 h
      obtain ⟨b, hb, h⟩ := bind_eq_ok_iff.1 h
      cases h
      exact Plan.alt_exhausts (ihe hp.1 ha) (ihf hp.2 hb)
  | loop least most greedy e ih =>
      refine settle_exhausts h fun hparts => ?_
      split at hparts
      · rename_i hbounds
        obtain ⟨rfl, rfl⟩ := hbounds
        obtain ⟨a, ha, hparts⟩ := bind_eq_ok_iff.1 hparts
        cases hparts
        split
        · exact (Plan.alt_exhausts (ih hp ha) Plan.skip_exhausts).anti fun i j h =>
            repeats_optional_iff.1 (matches_loop_iff.1 h)
        · exact (Plan.alt_exhausts Plan.skip_exhausts (ih hp ha)).anti fun i j h =>
            (repeats_optional_iff.1 (matches_loop_iff.1 h)).symm
      · obtain ⟨a, ha, hparts⟩ := bind_eq_ok_iff.1 hparts
        cases hparts
        have hmost (h : (most.isNone && e.minSize == 0) = true) : most = none := by
          rw [Bool.and_eq_true, Option.isNone_iff_eq_none] at h
          exact h.1
        exact (Plan.loop_exhausts least most greedy inside_matches hmost (ih hp ha)).anti
          fun i j => matches_loop_iff.1
  | capture g e ih =>
      refine settle_exhausts h fun h => ?_
      obtain ⟨a, ha, h⟩ := bind_eq_ok_iff.1 h
      cases h
      exact Plan.capture_exhausts g (ih hp ha)
  | restart =>
      cases h
      exact Plan.skip_exhausts
  | searchStart =>
      cases h
      exact Plan.searchStart_exhausts
  | _ => cases hp

end Expression

end AnswerGrading.Regex
