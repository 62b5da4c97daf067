import AnswerGrading.Proofs.PositionalSearch
import AnswerGrading.Proofs.SpaceRuns

/-!
Patterns whose matches depend on positions alone. What is answered about them is true, and a wider
one is compiled if the other is, unless it has grown too large.
-/

namespace AnswerGrading

namespace Regex

def OnlyTooLarge {α : Type} (x : Except Defect α) : Prop :=
  ∀ d, x = .error d → d = .tooLarge

namespace OnlyTooLarge

variable {α β : Type} {x : Except Defect α}

theorem of_ok (a : α) : OnlyTooLarge (.ok a : Except Defect α) :=
  nofun

theorem bind {f : α → Except Defect β} (hx : OnlyTooLarge x)
    (hf : ∀ a, x = .ok a → OnlyTooLarge (f a)) : OnlyTooLarge (x >>= f) := by
  cases x with
  | error d =>
      rintro d' ⟨⟩
      exact hx d rfl
  | ok a => exact hf a rfl

theorem map (hx : OnlyTooLarge x) (f : α → β) : OnlyTooLarge (x.map f) := by
  cases x with
  | error d =>
      rintro d' ⟨⟩
      exact hx d rfl
  | ok a => exact of_ok (f a)

theorem exists_ok (hx : OnlyTooLarge x) (hsize : x ≠ .error .tooLarge) : ∃ a, x = .ok a := by
  cases x with
  | error d => exact absurd (congrArg Except.error (hx d rfl)) hsize
  | ok a => exact ⟨a, rfl⟩

end OnlyTooLarge

theorem Regular.check_onlyTooLarge {r : Regular} (hs : r.Sound = true) : OnlyTooLarge r.check := by
  intro d hd
  rcases check_cases hs with h | h
  · exact (Except.error.inj (h.symm.trans hd)).symm
  · cases h.symm.trans hd

namespace Expression

variable {referred : List Nat} {e e' : Expression} {last : Bool} {p : Plan}

theorem settle_onlyTooLarge {parts : Except Defect Plan}
    (hwhole : ∀ r, e.regular? referred = some r → (last || e.fixedSize) = true → r.Sound = true)
    (hparts : OnlyTooLarge parts) : OnlyTooLarge (settle referred e last parts) := by
  unfold settle
  split
  · rename_i r hr
    split
    · rename_i hlast
      exact (Regular.check_onlyTooLarge (hwhole r hr hlast)).map _
    · exact hparts
  · exact hparts

theorem settle_of_sound {parts : Except Defect Plan} {r : Regular}
    (hr : e.regular? referred = some r) (hs : r.Sound = true) (hparts : OnlyTooLarge parts) :
    OnlyTooLarge (settle referred e last parts) :=
  settle_onlyTooLarge (fun _ hr' _ => Option.some.inj (hr.symm.trans hr') ▸ hs) hparts

theorem plan_of_sound {r : Regular} (hr : e.regular? referred = some r) (hs : r.Sound = true)
    (last : Bool) : OnlyTooLarge (e.plan referred last) := by
  induction e generalizing r last with
  | empty => exact .of_ok _
  | char => exact .of_ok _
  | anchor => exact .of_ok _
  | seq e f ihe ihf =>
      refine settle_of_sound hr hs ?_
      obtain ⟨p, q, hp, hq, rfl⟩ := bind_regular?_eq_some_iff.1 hr
      rw [Regular.Sound, Bool.and_eq_true] at hs
      exact (ihe hp hs.1 _).bind fun _ _ => (ihf hq hs.2 _).bind fun _ _ => .of_ok _
  | alt e f ihe ihf =>
      refine settle_of_sound hr hs ?_
      obtain ⟨p, q, hp, hq, rfl⟩ := bind_regular?_eq_some_iff.1 hr
      rw [Regular.Sound, Bool.and_eq_true] at hs
      exact (ihe hp hs.1 _).bind fun _ _ => (ihf hq hs.2 _).bind fun _ _ => .of_ok _
  | loop least most greedy e ih =>
      refine settle_of_sound hr hs ?_
      obtain ⟨p, hp, hl⟩ := Option.bind_eq_some_iff.1 hr
      cases hl
      rw [Regular.Sound, Bool.and_eq_true] at hs
      split
      · exact (ih hp hs.2 _).bind fun _ _ => .of_ok _
      · exact (ih hp hs.2 _).bind fun _ _ => .of_ok _
  | capture g e ih =>
      refine settle_of_sound hr hs ?_
      rw [regular?] at hr
      split at hr
      · cases hr
      · exact (ih hr hs _).bind fun _ _ => .of_ok _
  | _ => cases hr

theorem settle_wider {parts parts' : Except Defect Plan} (h : e.Wider e')
    (hp : e.positional = true) (hsettle : settle referred e last parts = .ok p)
    (hparts : parts = .ok p → OnlyTooLarge parts')
    (hwhole : ∀ r, e'.regular? referred = some r → r.Sound = true →
      OnlyTooLarge (settle referred e' last parts')) :
    OnlyTooLarge (settle referred e' last parts') := by
  rcases settle_eq_ok hsettle with ⟨r, hr, hs, -, -⟩ | ⟨hnot, hok⟩
  · obtain ⟨r', hr', hcovers⟩ := h.regular? referred hr
    exact hwhole r' hr' (hcovers.sound hs)
  · refine settle_onlyTooLarge (fun r' hr' hlast => ?_) (hparts hok)
    have hsome : (e.regular? referred).isSome = true := by
      rw [← h.isSome_regular?, hr', Option.isSome_some]
    have hfalse := hnot hsome
    rw [Bool.or_eq_false_iff] at hfalse
    rw [hfalse.1, Bool.false_or] at hlast
    exact absurd (h.fixedSize_of hp hlast) (by simp [hfalse.2])

theorem Wider.plan_onlyTooLarge (h : e.Wider e') (hp : e.positional = true)
    (hplan : e.plan referred last = .ok p) : OnlyTooLarge (e'.plan referred last) := by
  induction h generalizing last p with
  | refl e =>
      rw [hplan]
      exact .of_ok _
  | char => exact .of_ok _
  | run h greedy => exact plan_of_sound rfl rfl last
  | seq he hf ihe ihf =>
      refine settle_wider (he.seq hf) hp hplan (fun hparts => ?_)
        fun r hr hs => plan_of_sound hr hs last
      rw [positional, Bool.and_eq_true] at hp
      obtain ⟨a, ha, hparts⟩ := bind_eq_ok_iff.1 hparts
      obtain ⟨b, hb, -⟩ := bind_eq_ok_iff.1 hparts
      exact (ihe hp.1 ha).bind fun _ _ => (ihf hp.2 hb).bind fun _ _ => .of_ok _
  | alt he hf ihe ihf =>
      refine settle_wider (he.alt hf) hp hplan (fun hparts => ?_)
        fun r hr hs => plan_of_sound hr hs last
      rw [positional, Bool.and_eq_true] at hp
      obtain ⟨a, ha, hparts⟩ := bind_eq_ok_iff.1 hparts
      obtain ⟨b, hb, -⟩ := bind_eq_ok_iff.1 hparts
      exact (ihe hp.1 ha).bind fun _ _ => (ihf hp.2 hb).bind fun _ _ => .of_ok _
  | loop least most greedy he ih =>
      refine settle_wider (he.loop least most greedy) hp hplan (fun hparts => ?_)
        fun r hr hs => plan_of_sound hr hs last
      split at hparts
      · rename_i hbounds
        rw [if_pos hbounds]
        obtain ⟨a, ha, -⟩ := bind_eq_ok_iff.1 hparts
        exact (ih hp ha).bind fun _ _ => .of_ok _
      · rename_i hbounds
        rw [if_neg hbounds]
        obtain ⟨a, ha, -⟩ := bind_eq_ok_iff.1 hparts
        exact (ih hp ha).bind fun _ _ => .of_ok _
  | capture g he ih =>
      refine settle_wider (he.capture g) hp hplan (fun hparts => ?_)
        fun r hr hs => plan_of_sound hr hs last
      obtain ⟨a, ha, -⟩ := bind_eq_ok_iff.1 hparts
      exact (ih hp ha).bind fun _ _ => .of_ok _
  | look => cases hp
  | atomic => cases hp

end Expression

section Sources

variable {s s' : Source} {program : Program} {text : List Char}

theorem program_eq_ok (h : s.program = .ok program) :
    (∃ r, s.expression.regular? s.referred = some r ∧ r.Sound = true ∧ program = .regular r) ∨
    s.expression.regular? s.referred = none ∧ ∃ plan,
      s.expression.spread.plan s.referred false = .ok plan ∧ program = .search s.groups plan := by
  unfold Source.program at h
  split at h
  · rename_i r hr
    obtain ⟨hs, rfl⟩ := Regular.sound_of_map_check h
    exact .inl ⟨r, hr, hs, rfl⟩
  · rename_i hr
    obtain ⟨plan, hplan, rfl⟩ := map_eq_ok_iff.1 h
    exact .inr ⟨hr, plan, hplan, rfl⟩

theorem matches_of_occurs? (hp : s.expression.positional = true) (h : s.program = .ok program)
    (ho : program.occurs? text = some true) :
    ∃ i j, i ≤ text.toArray.size ∧ s.expression.Matches text.toArray i j := by
  rcases program_eq_ok h with ⟨r, hr, hs, rfl⟩ | ⟨-, plan, hplan, rfl⟩
  · obtain ⟨i, j, hi, hm⟩ := (Regular.occurs_iff hs _).1 (Option.some.inj ho)
    exact ⟨i, j, hi, (Expression.matches_iff_of_regular? hr hs).2 hm⟩
  · rw [Expression.spread_of_positional hp] at hplan
    rw [Program.occurs?, Plan.occurs?] at ho
    split at ho
    · rename_i hfound
      exact Plan.search_found (Expression.plan_finds hp hplan) hfound
    · cases ho
    · cases ho

theorem not_matches_of_occurs? (hp : s.expression.positional = true) (h : s.program = .ok program)
    (ho : program.occurs? text = some false) {i : Nat} (hi : i ≤ text.toArray.size) (j : Nat) :
    ¬s.expression.Matches text.toArray i j := by
  rcases program_eq_ok h with ⟨r, hr, hs, rfl⟩ | ⟨-, plan, hplan, rfl⟩
  · intro hm
    have hoccurs := (Regular.occurs_iff hs _).2
      ⟨i, j, hi, (Expression.matches_iff_of_regular? hr hs).1 hm⟩
    exact Bool.false_ne_true ((Option.some.inj ho).symm.trans hoccurs)
  · rw [Expression.spread_of_positional hp] at hplan
    rw [Program.occurs?, Plan.occurs?] at ho
    split at ho
    · cases ho
    · rename_i hfailed
      exact Plan.search_failed (Expression.plan_exhausts hp hplan) hfailed (by omega) hi j
    · cases ho

theorem regular?_of_occurs? (h : s.program = .ok program) (ho : program.occurs? text = none) :
    s.expression.regular? s.referred = none := by
  rcases program_eq_ok h with ⟨r, -, -, rfl⟩ | ⟨hr, -⟩
  · cases ho
  · exact hr

theorem Source.Wider.program_onlyTooLarge (h : s.Wider s') (hp : s.expression.positional = true)
    (hprogram : s.program = .ok program) : OnlyTooLarge s'.program := by
  have hp' := h.expression.positional_eq.trans hp
  rw [Source.program, h.referred, h.groups, Expression.spread_of_positional hp']
  rcases program_eq_ok hprogram with ⟨r, hr, hs, -⟩ | ⟨hr, plan, hplan, -⟩
  · obtain ⟨r', hr', hcovers⟩ := h.expression.regular? _ hr
    rw [hr']
    exact (Regular.check_onlyTooLarge (hcovers.sound hs)).map _
  · have hnone : s'.expression.regular? s.referred = none := by
      rw [← Option.isNone_iff_eq_none, ← Option.isSome_eq_false_iff, h.expression.isSome_regular?,
        hr, Option.isSome_none]
    rw [Expression.spread_of_positional hp] at hplan
    rw [hnone]
    exact (h.expression.plan_onlyTooLarge hp hplan).map _

end Sources

end Regex

namespace Pattern

open Regex

/-- The pattern can be read and its matches depend on positions alone. -/
def positional (p : Pattern) : Bool :=
  match Source.read p.modes p.text.toList with
  | .ok source => source.expression.positional
  | .error _ => false

variable {p p' : Pattern} {source source' : Source} {subject : String} {accepted : Bool}

theorem exists_read_of_positional (h : p.positional = true) :
    ∃ source, Source.read p.modes p.text.toList = .ok source ∧
      source.expression.positional = true := by
  unfold positional at h
  split at h
  · rename_i source hread
    exact ⟨source, hread, h⟩
  · cases h

theorem compile_of_read (h : Source.read p.modes p.text.toList = .ok source) :
    p.compile = source.program := by
  rw [compile, Program.compile, h]
  rfl

theorem matches_eq_ok (h : p.matches subject = .ok accepted) :
    ∃ program, p.compile = .ok program ∧ program.occurs? subject.toList = some accepted := by
  unfold Pattern.matches at h
  split at h
  · rename_i program hcompile
    unfold answer at h
    split at h
    · rename_i hoccurs
      cases h
      exact ⟨program, hcompile, hoccurs⟩
    · cases h
  · cases h

theorem matches_cases {program : Program} (h : p.compile = .ok program) (subject : String) :
    (∃ accepted, p.matches subject = .ok accepted ∧
      program.occurs? subject.toList = some accepted) ∨
    p.matches subject = .error (p.failure "the search for a match was given up") ∧
      program.occurs? subject.toList = none := by
  unfold Pattern.matches answer
  rw [h]
  dsimp only
  cases program.occurs? subject.toList with
  | some accepted => exact .inl ⟨accepted, rfl, rfl⟩
  | none => exact .inr ⟨rfl, rfl⟩

theorem compile_wider (hread : Source.read p.modes p.text.toList = .ok source)
    (hread' : Source.read p'.modes p'.text.toList = .ok source') (h : source.Wider source')
    (hp : source.expression.positional = true) (hsize : p'.compile ≠ .error .tooLarge)
    {program : Program} (hcompile : p.compile = .ok program) :
    ∃ program', p'.compile = .ok program' := by
  rw [compile_of_read hread] at hcompile
  rw [compile_of_read hread'] at hsize ⊢
  exact (h.program_onlyTooLarge hp hcompile).exists_ok hsize

theorem matches_wider (hread : Source.read p.modes p.text.toList = .ok source)
    (hread' : Source.read p'.modes p'.text.toList = .ok source') (h : source.Wider source')
    (hp : source.expression.positional = true) (hsize : p'.compile ≠ .error .tooLarge)
    (hmatches : p.matches subject = .ok true) :
    p'.matches subject = .ok true ∨ p'.regular? = none ∧
      p'.matches subject = .error (p'.failure "the search for a match was given up") := by
  obtain ⟨program, hcompile, ho⟩ := matches_eq_ok hmatches
  obtain ⟨program', hcompile'⟩ := compile_wider hread hread' h hp hsize hcompile
  have hprogram := (compile_of_read hread).symm.trans hcompile
  have hprogram' := (compile_of_read hread').symm.trans hcompile'
  obtain ⟨i, j, hi, hm⟩ := matches_of_occurs? hp hprogram ho
  have hm' := h.expression.matches_mono hm
  rcases matches_cases hcompile' subject with ⟨accepted, ha, ho'⟩ | ⟨hgave, ho'⟩
  · cases accepted with
    | true => exact .inl ha
    | false =>
        have hp' := h.expression.positional_eq.trans hp
        exact absurd hm' (not_matches_of_occurs? hp' hprogram' ho' hi j)
  · refine .inr ⟨?_, hgave⟩
    rw [regular?, hread']
    exact regular?_of_occurs? hprogram' ho'

end Pattern

end AnswerGrading
