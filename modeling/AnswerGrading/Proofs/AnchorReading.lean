import AnswerGrading.Proofs.Sections
import AnswerGrading.Specification.Diagnostic

/-!
Anchors beside a grammar of escape pairs and bracket classes. The anchor that is found is the first
one outside of both, as long as a class holds `[:` only where a named class begins; behind any other
`[:` everything up to the next `:]` counts as one name, and without one nothing more is looked at.
-/

namespace AnswerGrading

namespace Anchors

def IsClassName (name : List Char) : Prop :=
  ∃ letters, letters ≠ [] ∧ Letters letters ∧ (name = letters ∨ name = '^' :: letters)

/-- The text goes on, behind a bracket, with the rest of a named class. -/
def BeginsName (cs : List Char) : Prop :=
  ∃ name rest, IsClassName name ∧ cs = ':' :: (name ++ ':' :: ']' :: rest)

def NoName (cs : List Char) : Prop :=
  ¬BeginsName cs

def NoColon (cs : List Char) : Prop :=
  cs.head? ≠ some ':'

/-- Whole members of a class in front of some text. A named class is one member, and so is a bracket
in front of text that makes it an ordinary one. -/
inductive Members (ordinary : List Char → Prop) : List Char → List Char → Prop
  | nil {rest : List Char} : Members ordinary [] rest
  | pair {c : Char} {cs rest : List Char} : Members ordinary cs rest →
      Members ordinary ('\\' :: c :: cs) rest
  | named {name cs rest : List Char} : IsClassName name → Members ordinary cs rest →
      Members ordinary ('[' :: ':' :: (name ++ ':' :: ']' :: cs)) rest
  | bracket {cs rest : List Char} : ordinary (cs ++ rest) → Members ordinary cs rest →
      Members ordinary ('[' :: cs) rest
  | char {c : Char} {cs rest : List Char} : c ∉ ['\\', '[', ']'] → Members ordinary cs rest →
      Members ordinary (c :: cs) rest

/-- What belongs to the start of a class: a `^` if there is one, and a `]` right after it. -/
inductive Lead : List Char → List Char → Prop
  | none {cs : List Char} : cs.head? ≠ some '^' → cs.head? ≠ some ']' → Lead [] cs
  | hat {cs : List Char} : cs.head? ≠ some ']' → Lead ['^'] cs
  | bracket {cs : List Char} : Lead [']'] cs
  | both {cs : List Char} : Lead ['^', ']'] cs

/-- Text without an anchor in front of some other: escape pairs, whole classes, and characters that
are neither anchors nor start one of these. -/
inductive Passed (ordinary : List Char → Prop) : List Char → List Char → Prop
  | nil {rest : List Char} : Passed ordinary [] rest
  | pair {c : Char} {cs rest : List Char} : Passed ordinary cs rest →
      Passed ordinary ('\\' :: c :: cs) rest
  | char {c : Char} {cs rest : List Char} : c ∉ ['\\', '[', '^', '$'] →
      Passed ordinary cs rest → Passed ordinary (c :: cs) rest
  | cls {lead members cs rest : List Char} : Lead lead (members ++ ']' :: (cs ++ rest)) →
      Members ordinary members (']' :: (cs ++ rest)) → Passed ordinary cs rest →
      Passed ordinary ('[' :: (lead ++ (members ++ ']' :: cs))) rest

/-- Text that ends inside a class, between two members. -/
def InClass (ordinary : List Char → Prop) (before rest : List Char) : Prop :=
  ∃ passed lead members, before = passed ++ '[' :: (lead ++ members) ∧
    Passed ordinary passed ('[' :: (lead ++ members) ++ rest) ∧ Lead lead (members ++ rest) ∧
    Members ordinary members rest

/-- Inside a class `[:` stands only where a named class begins. -/
def OnlyNames (cs : List Char) : Prop :=
  ∀ before after, cs = before ++ '[' :: ':' :: after →
    InClass NoColon before ('[' :: ':' :: after) → BeginsName (':' :: after)

section Scan

attribute [local simp] anchorFrom?

theorem inside_pair (c : Char) (cs : List Char) :
    anchorFrom? .inside ('\\' :: c :: cs) = anchorFrom? .inside cs := by
  rw [anchorFrom?] <;> simp

theorem inside_close (cs : List Char) :
    anchorFrom? .inside (']' :: cs) = anchorFrom? .outside cs := by
  cases cs <;> simp

theorem inside_char {c : Char} (h : c ∉ ['\\', '[', ']']) (cs : List Char) :
    anchorFrom? .inside (c :: cs) = anchorFrom? .inside cs := by
  simp only [List.mem_cons, List.not_mem_nil, or_false, not_or] at h
  cases cs <;> simp [h]

theorem inside_bracket {cs : List Char} (h : NoColon cs) :
    anchorFrom? .inside ('[' :: cs) = anchorFrom? .inside cs := by
  cases cs with
  | nil => rfl
  | cons c cs =>
      have hc : c ≠ ':' := fun he => h (by rw [he]; rfl)
      simp [hc]

theorem inside_colon (cs : List Char) :
    anchorFrom? .inside ('[' :: ':' :: cs) = anchorFrom? .named cs := by
  simp

theorem named_close (cs : List Char) :
    anchorFrom? .named (':' :: ']' :: cs) = anchorFrom? .inside cs := by
  simp

theorem named_char {c : Char} {cs : List Char} (h : ¬[':', ']'] <+: c :: cs) :
    anchorFrom? .named (c :: cs) = anchorFrom? .named cs := by
  rw [anchorFrom?]
  rintro cs' rfl rfl
  exact h ⟨cs', rfl⟩

theorem named_of_closed {name : List Char} (h : ¬[':', ']'] <:+: name ++ [':'])
    (rest : List Char) :
    anchorFrom? .named (name ++ ':' :: ']' :: rest) = anchorFrom? .inside rest := by
  induction name with
  | nil => exact named_close rest
  | cons c name ih =>
      have hname := ih fun hi => h (List.infix_cons hi)
      rw [List.cons_append, named_char ?_, hname]
      rintro ⟨ds, hds⟩
      cases name with
      | nil => cases hds
      | cons d name =>
          cases hds
          exact h ⟨[], name ++ [':'], rfl⟩

theorem named_of_open {cs : List Char} (h : ¬[':', ']'] <:+: cs) :
    anchorFrom? .named cs = none := by
  induction cs with
  | nil => rfl
  | cons c cs ih =>
      rw [named_char fun hp => h hp.isInfix]
      exact ih fun hi => h (List.infix_cons hi)

theorem IsClassName.not_infix {name : List Char} (h : IsClassName name) :
    ¬[':', ']'] <:+: name ++ [':'] := by
  intro hi
  have hm : ']' ∈ name ++ [':'] := hi.subset (by simp)
  obtain ⟨letters, -, hl, rfl | rfl⟩ := h
  · simp only [List.mem_append, List.mem_singleton] at hm
    exact absurd (hl _ (hm.resolve_right (by decide))) (by decide)
  · simp only [List.cons_append, List.mem_cons, List.mem_append, List.not_mem_nil, or_false] at hm
    exact absurd (hl _ ((hm.resolve_left (by decide)).resolve_right (by decide))) (by decide)

theorem Members.inside {ms rest : List Char} (h : Members NoColon ms rest) :
    anchorFrom? .inside (ms ++ rest) = anchorFrom? .inside rest := by
  induction h with
  | nil => rfl
  | pair _ ih => exact (inside_pair _ _).trans ih
  | @named name cs rest hname _ ih =>
      have hclosed := named_of_closed hname.not_infix (cs ++ rest)
      rw [← ih, ← hclosed, ← inside_colon]
      simp
  | bracket ho _ ih => exact (inside_bracket ho).trans ih
  | char hc _ ih => exact (inside_char hc _).trans ih

theorem opened_eq_inside {cs : List Char} (hh : cs.head? ≠ some '^')
    (hb : cs.head? ≠ some ']') : anchorFrom? .opened cs = anchorFrom? .inside cs := by
  cases cs with
  | nil => rfl
  | cons c cs =>
      have hhat : c ≠ '^' := fun he => hh (by rw [he]; rfl)
      have hbracket : c ≠ ']' := fun he => hb (by rw [he]; rfl)
      unfold anchorFrom?
      simp [hhat, hbracket]

theorem negated_eq_inside {cs : List Char} (hb : cs.head? ≠ some ']') :
    anchorFrom? .negated cs = anchorFrom? .inside cs := by
  cases cs with
  | nil => rfl
  | cons c cs =>
      have hbracket : c ≠ ']' := fun he => hb (by rw [he]; rfl)
      unfold anchorFrom?
      simp [hbracket]

theorem outside_bracket {lead cs : List Char} (h : Lead lead cs) :
    anchorFrom? .outside ('[' :: (lead ++ cs)) = anchorFrom? .inside cs := by
  have hopen (ds : List Char) : anchorFrom? .outside ('[' :: ds) = anchorFrom? .opened ds := by
    cases ds <;> simp
  rw [hopen]
  cases h with
  | none hh hb => exact opened_eq_inside hh hb
  | hat hb =>
      rw [← negated_eq_inside hb]
      cases cs <;> simp
  | bracket => cases cs <;> simp
  | both => cases cs <;> simp

theorem outside_pair (c : Char) (cs : List Char) :
    anchorFrom? .outside ('\\' :: c :: cs) = anchorFrom? .outside cs := by
  simp

theorem outside_char {c : Char} (h : c ∉ ['\\', '[', '^', '$']) (cs : List Char) :
    anchorFrom? .outside (c :: cs) = anchorFrom? .outside cs := by
  simp only [List.mem_cons, List.not_mem_nil, or_false, not_or] at h
  cases cs <;> simp [h]

theorem outside_anchor {a : Char} (h : a ∈ ['^', '$']) (cs : List Char) :
    anchorFrom? .outside (a :: cs) = some a := by
  simp only [List.mem_cons, List.not_mem_nil, or_false] at h
  rcases h with rfl | rfl
  · cases cs <;> simp
  · cases cs <;> simp

theorem Passed.outside {ps rest : List Char} (h : Passed NoColon ps rest) :
    anchorFrom? .outside (ps ++ rest) = anchorFrom? .outside rest := by
  induction h with
  | nil => rfl
  | pair _ ih => exact (outside_pair _ _).trans ih
  | char hc _ ih => exact (outside_char hc _).trans ih
  | @cls lead ms cs rest hl hm _ ih =>
      have hclass := (outside_bracket hl).trans (hm.inside.trans (inside_close (cs ++ rest)))
      rw [← ih, ← hclass]
      simp

theorem InClass.outside {before rest : List Char} (h : InClass NoColon before rest) :
    anchorFrom? .outside (before ++ rest) = anchorFrom? .inside rest := by
  obtain ⟨ps, lead, ms, rfl, hp, hl, hm⟩ := h
  rw [List.append_assoc, hp.outside, ← hm.inside, ← outside_bracket hl]
  simp

inductive Inside (cs : List Char) : Prop
  | closed {ms rest : List Char} : cs = ms ++ ']' :: rest → Members NoColon ms (']' :: rest) →
      Inside cs
  | endless : anchorFrom? .inside cs = none → Inside cs
  | unnamed {ms after : List Char} : cs = ms ++ '[' :: ':' :: after →
      Members NoColon ms ('[' :: ':' :: after) → ¬BeginsName (':' :: after) → Inside cs

theorem Inside.append (member : List Char) {cs : List Char} (h : Inside cs)
    (hs : anchorFrom? .inside (member ++ cs) = anchorFrom? .inside cs)
    (hm : ∀ ms rest, cs = ms ++ rest → Members NoColon ms rest →
      Members NoColon (member ++ ms) rest) : Inside (member ++ cs) := by
  cases h with
  | @closed ms rest ht h =>
      exact .closed (by rw [ht, List.append_assoc]) (hm ms (']' :: rest) ht h)
  | endless h => exact .endless (hs.trans h)
  | @unnamed ms after ht h hn =>
      exact .unnamed (by rw [ht, List.append_assoc]) (hm ms ('[' :: ':' :: after) ht h) hn

theorem inside_cases (cs : List Char) : Inside cs := by
  -- a named class is more than one character long
  induction hn : cs.length using Nat.strong_induction_on generalizing cs with
  | _ n ih =>
      have hrest (member rest : List Char) (hm : member ≠ []) (ht : cs = member ++ rest) :
          Inside rest := by
        refine ih rest.length ?_ rest rfl
        have := List.length_pos_iff.2 hm
        rw [← hn, ht, List.length_append]
        omega
      rcases cs with _ | ⟨c, cs⟩
      · exact .endless rfl
      by_cases hb : c = '\\'
      · subst hb
        rcases cs with _ | ⟨d, cs⟩
        · exact .endless (by rw [anchorFrom?] <;> simp)
        · exact (hrest ['\\', d] cs (by simp) rfl).append ['\\', d] (inside_pair d cs)
            fun _ _ _ => .pair
      by_cases hc : c = ']'
      · subst hc
        exact .closed (List.nil_append _).symm .nil
      by_cases ho : c = '['
      · subst ho
        by_cases hcolon : NoColon cs
        · refine (hrest ['['] cs (by simp) rfl).append ['['] (inside_bracket hcolon) ?_
          exact fun _ _ ht => .bracket (ht ▸ hcolon)
        · obtain ⟨after, rfl⟩ := List.head?_eq_some_iff.1 (not_not.1 hcolon)
          by_cases hname : BeginsName (':' :: after)
          · obtain ⟨name, rest, hname, ht⟩ := hname
            obtain rfl := (List.cons.inj ht).2
            have hscan : anchorFrom? .inside ('[' :: ':' :: (name ++ ':' :: ']' :: rest)) =
                anchorFrom? .inside rest :=
              (inside_colon _).trans (named_of_closed hname.not_infix rest)
            have hshape := (hrest ('[' :: ':' :: (name ++ [':', ']'])) rest (by simp)
              (by simp)).append ('[' :: ':' :: (name ++ [':', ']'])) (by simpa using hscan)
              fun ms _ _ h => by simpa using Members.named hname h
            simpa using hshape
          · exact .unnamed (List.nil_append _).symm .nil hname
      · have hchar : c ∉ ['\\', '[', ']'] := by simp [hb, hc, ho]
        exact (hrest [c] cs (by simp) rfl).append [c] (inside_char hchar cs)
          fun _ _ _ => .char hchar

inductive Outside (cs : List Char) : Prop
  | anchor {a : Char} {ps after : List Char} : a ∈ ['^', '$'] → cs = ps ++ a :: after →
      Passed NoColon ps (a :: after) → Outside cs
  | endless : anchorFrom? .outside cs = none → Outside cs
  | unnamed {before after : List Char} : cs = before ++ '[' :: ':' :: after →
      InClass NoColon before ('[' :: ':' :: after) → ¬BeginsName (':' :: after) → Outside cs

theorem InClass.append {p before rest : List Char} (h : InClass NoColon before rest)
    (hp : ∀ ps cs, before ++ rest = ps ++ cs → Passed NoColon ps cs →
      Passed NoColon (p ++ ps) cs) : InClass NoColon (p ++ before) rest := by
  obtain ⟨ps, lead, ms, rfl, hps, hl, hm⟩ := h
  exact ⟨p ++ ps, lead, ms, by simp, hp ps _ (by simp) hps, hl, hm⟩

theorem Outside.append (p : List Char) {cs : List Char} (h : Outside cs)
    (hs : anchorFrom? .outside (p ++ cs) = anchorFrom? .outside cs)
    (hp : ∀ ps rest, cs = ps ++ rest → Passed NoColon ps rest →
      Passed NoColon (p ++ ps) rest) : Outside (p ++ cs) := by
  cases h with
  | @anchor a ps after ha ht h =>
      exact .anchor ha (by rw [ht, List.append_assoc]) (hp ps (a :: after) ht h)
  | endless h => exact .endless (hs.trans h)
  | @unnamed before after ht h hn =>
      refine .unnamed (by rw [ht, List.append_assoc]) (h.append fun ps cs' he => ?_) hn
      exact hp ps cs' (ht.trans he)

theorem exists_lead (cs : List Char) : ∃ lead rest, cs = lead ++ rest ∧ Lead lead rest := by
  by_cases hh : cs.head? = some '^'
  · obtain ⟨cs, rfl⟩ := List.head?_eq_some_iff.1 hh
    by_cases hb : cs.head? = some ']'
    · obtain ⟨cs, rfl⟩ := List.head?_eq_some_iff.1 hb
      exact ⟨['^', ']'], cs, rfl, .both⟩
    · exact ⟨['^'], cs, rfl, .hat hb⟩
  · by_cases hb : cs.head? = some ']'
    · obtain ⟨cs, rfl⟩ := List.head?_eq_some_iff.1 hb
      exact ⟨[']'], cs, rfl, .bracket⟩
    · exact ⟨[], cs, rfl, .none hh hb⟩

theorem outside_cases (cs : List Char) : Outside cs := by
  -- a class is passed as a whole
  induction hn : cs.length using Nat.strong_induction_on generalizing cs with
  | _ n ih =>
      have hrest (p rest : List Char) (hp : p ≠ []) (ht : cs = p ++ rest) : Outside rest := by
        refine ih rest.length ?_ rest rfl
        have := List.length_pos_iff.2 hp
        rw [← hn, ht, List.length_append]
        omega
      rcases cs with _ | ⟨c, cs⟩
      · exact .endless rfl
      by_cases hb : c = '\\'
      · subst hb
        rcases cs with _ | ⟨d, cs⟩
        · exact .endless (by rw [anchorFrom?]; simp)
        · exact (hrest ['\\', d] cs (by simp) rfl).append ['\\', d] (outside_pair d cs)
            fun _ _ _ => .pair
      by_cases ha : c ∈ ['^', '$']
      · exact .anchor ha (List.nil_append _).symm .nil
      by_cases ho : c = '['
      · subst ho
        obtain ⟨lead, cs, rfl, hl⟩ := exists_lead cs
        have hopen := outside_bracket hl
        cases inside_cases cs with
        | @closed ms rest ht hm =>
            subst ht
            have hscan := hopen.trans (hm.inside.trans (inside_close rest))
            have hshape := (hrest ('[' :: (lead ++ (ms ++ [']']))) rest (by simp) (by simp)).append
              ('[' :: (lead ++ (ms ++ [']']))) (by simpa using hscan) fun ps rest' ht hps => by
                subst ht
                simpa using Passed.cls hl hm hps
            simpa using hshape
        | endless h => exact .endless (hopen.trans h)
        | @unnamed ms after ht hm hname =>
            subst ht
            exact .unnamed (by simp) ⟨[], lead, ms, rfl, .nil, hl, hm⟩ hname
      · have hchar : c ∉ ['\\', '[', '^', '$'] := by simp_all
        exact (hrest [c] cs (by simp) rfl).append [c] (outside_char hchar cs)
          fun _ _ _ => .char hchar

end Scan

section Readings

theorem noName_of_noColon {cs : List Char} (h : NoColon cs) : NoName cs := by
  rintro ⟨name, rest, -, rfl⟩
  exact h rfl

theorem Members.noName {ms rest : List Char} (h : Members NoColon ms rest) :
    Members NoName ms rest := by
  induction h with
  | nil => exact .nil
  | pair _ ih => exact .pair ih
  | named hname _ ih => exact .named hname ih
  | bracket ho _ ih => exact .bracket (noName_of_noColon ho) ih
  | char hc _ ih => exact .char hc ih

theorem Passed.noName {ps rest : List Char} (h : Passed NoColon ps rest) :
    Passed NoName ps rest := by
  induction h with
  | nil => exact .nil
  | pair _ ih => exact .pair ih
  | char hc _ ih => exact .char hc ih
  | cls hl hm _ ih => exact .cls hl hm.noName ih

/-- Where `[:` begins named classes only, the two readings of a bracket inside a class agree. -/
theorem Members.noColon {ms rest : List Char} (h : Members NoName ms rest)
    (hnames : ∀ before after, ms ++ rest = before ++ '[' :: ':' :: after →
      Members NoColon before ('[' :: ':' :: after) → BeginsName (':' :: after)) :
    Members NoColon ms rest := by
  induction h with
  | nil => exact .nil
  | @pair c cs rest _ ih =>
      exact .pair (ih fun before after ht hb => hnames ('\\' :: c :: before) after (by simp [ht])
        hb.pair)
  | @named name cs rest hname _ ih =>
      refine .named hname (ih fun before after ht hb => ?_)
      exact hnames _ after (by simp [ht]) (hb.named hname)
  | @bracket cs rest ho _ ih =>
      have hcolon : NoColon (cs ++ rest) := by
        intro hc
        obtain ⟨after, ht⟩ := List.head?_eq_some_iff.1 hc
        exact ho (ht ▸ hnames [] after (congrArg ('[' :: ·) ht) .nil)
      refine .bracket hcolon (ih fun before after ht hb => ?_)
      exact hnames _ after (by rw [List.cons_append, ht]; rfl) (.bracket (ht ▸ hcolon) hb)
  | char hc _ ih =>
      exact .char hc (ih fun before after ht hb =>
        hnames _ after (by rw [List.cons_append, ht]; rfl) (hb.char hc))

theorem OnlyNames.tail {p cs : List Char} (h : OnlyNames (p ++ cs))
    (hp : ∀ ps rest, cs = ps ++ rest → Passed NoColon ps rest →
      Passed NoColon (p ++ ps) rest) : OnlyNames cs := by
  intro before after ht hb
  refine h (p ++ before) after (by rw [ht, List.append_assoc]) (hb.append fun ps rest he => ?_)
  exact hp ps rest (ht.trans he)

theorem Passed.noColon {ps rest : List Char} (h : Passed NoName ps rest)
    (hnames : OnlyNames (ps ++ rest)) : Passed NoColon ps rest := by
  induction h with
  | nil => exact .nil
  | @pair c cs rest _ ih =>
      exact .pair (ih (OnlyNames.tail (p := ['\\', c]) hnames fun _ _ _ => .pair))
  | @char c cs rest hc _ ih =>
      exact .char hc (ih (OnlyNames.tail (p := [c]) hnames fun _ _ _ => .char hc))
  | @cls lead ms cs rest hl hm _ ih =>
      have hmembers : Members NoColon ms (']' :: (cs ++ rest)) := by
        refine hm.noColon fun before after ht hb => ?_
        refine hnames ('[' :: (lead ++ before)) after ?_ ⟨[], lead, before, rfl, .nil, ?_, hb⟩
        · simpa using ht
        · exact ht ▸ hl
      have hclass : OnlyNames (cs ++ rest) := by
        refine OnlyNames.tail (p := '[' :: (lead ++ (ms ++ [']']))) (by simpa using hnames) ?_
        intro ps rest' ht hps
        rw [ht] at hl hmembers
        simpa using Passed.cls hl hmembers hps
      exact .cls hl hmembers (ih hclass)

variable {rest rest' : List Char} (hr : rest.head? = rest'.head?)

include hr

theorem head?_append_congr (cs : List Char) : (cs ++ rest).head? = (cs ++ rest').head? := by
  rw [List.head?_append, List.head?_append, hr]

theorem Members.congr {ms : List Char} (h : Members NoColon ms rest) :
    Members NoColon ms rest' := by
  induction h with
  | nil => exact .nil
  | pair _ ih => exact .pair (ih hr)
  | named hname _ ih => exact .named hname (ih hr)
  | @bracket cs rest ho _ ih =>
      exact .bracket (fun hc => ho ((head?_append_congr hr cs).trans hc)) (ih hr)
  | char hc _ ih => exact .char hc (ih hr)

theorem Lead.congr {lead : List Char} (h : Lead lead rest) : Lead lead rest' := by
  cases h with
  | none hh hb => exact .none (hr ▸ hh) (hr ▸ hb)
  | hat hb => exact .hat (hr ▸ hb)
  | bracket => exact .bracket
  | both => exact .both

theorem Passed.congr {ps : List Char} (h : Passed NoColon ps rest) : Passed NoColon ps rest' := by
  induction h with
  | nil => exact .nil
  | pair _ ih => exact .pair (ih hr)
  | char hc _ ih => exact .char hc (ih hr)
  | @cls lead ms cs rest hl hm _ ih =>
      have hclose : (']' :: (cs ++ rest)).head? = (']' :: (cs ++ rest')).head? := rfl
      exact .cls (hl.congr (head?_append_congr hclose ms)) (hm.congr hclose) (ih hr)

theorem InClass.congr {before : List Char} (h : InClass NoColon before rest) :
    InClass NoColon before rest' := by
  obtain ⟨ps, lead, ms, rfl, hp, hl, hm⟩ := h
  exact ⟨ps, lead, ms, rfl, hp.congr (by rfl), hl.congr (head?_append_congr hr ms), hm.congr hr⟩

end Readings

theorem onlyNames_of_drop {f : List Char}
    (h : ∀ n < f.length, (f.drop n).take 2 = ['[', ':'] → BeginsName (f.drop (n + 1))) :
    OnlyNames f := by
  rintro before after rfl -
  have hname := h before.length (by simp) (by simp)
  rwa [List.drop_append, List.drop_eq_nil_of_le (by omega), Nat.add_sub_cancel_left] at hname

/-- The anchor that is found is the first one that is neither escaped nor in a class, if a class
holds `[:` only where a named class begins. Any other `[:` takes everything up to the next `:]` for
a name, and without one nothing behind it is looked at. -/
theorem unescapedAnchor?_iff (f : List Char) :
    (OnlyNames f → ∀ a, unescapedAnchor? f = some a ↔
      a ∈ ['^', '$'] ∧ ∃ before after, f = before ++ a :: after ∧
        Passed NoName before (a :: after)) ∧
    (∀ before after, f = before ++ '[' :: ':' :: after →
      InClass NoColon before ('[' :: ':' :: after) →
      (¬[':', ']'] <:+: after → unescapedAnchor? f = none) ∧
      ∀ name rest, after = name ++ ':' :: ']' :: rest → ¬[':', ']'] <:+: name ++ [':'] →
        unescapedAnchor? f = unescapedAnchor? (before ++ "[:alpha:]".toList ++ rest)) := by
  refine ⟨fun hnames a => ⟨fun h => ?_, ?_⟩, ?_⟩
  · cases outside_cases f with
    | @anchor b ps after hb ht hp =>
        have hfirst : anchorFrom? .outside f = some b := by
          rw [ht, hp.outside, outside_anchor hb]
        obtain rfl := Option.some.inj (h.symm.trans hfirst)
        exact ⟨hb, ps, after, ht, hp.noName⟩
    | endless hnone => exact absurd (h.symm.trans hnone) (by simp)
    | @unnamed before after ht hin hname => exact absurd (hnames before after ht hin) hname
  · rintro ⟨ha, before, after, rfl, hp⟩
    rw [unescapedAnchor?, (hp.noColon hnames).outside, outside_anchor ha]
  · rintro before after rfl hin
    have hname : unescapedAnchor? (before ++ '[' :: ':' :: after) = anchorFrom? .named after :=
      hin.outside.trans (inside_colon after)
    refine ⟨fun hopen => hname.trans (named_of_open hopen), ?_⟩
    rintro name rest rfl hclosed
    have halpha : InClass NoColon before ("[:alpha:]".toList ++ rest) :=
      hin.congr (by rfl)
    have hclass : IsClassName "alpha".toList :=
      ⟨"alpha".toList, by decide, List.all_eq_true.1 (by decide), .inl rfl⟩
    have hrest : anchorFrom? .named ("alpha".toList ++ ':' :: ']' :: rest) =
        anchorFrom? .inside rest := named_of_closed hclass.not_infix rest
    rw [hname, named_of_closed hclosed, ← hrest, ← inside_colon, List.append_assoc]
    exact halpha.outside.symm

theorem unescapedAnchor?_iff_classes :
    OnlyNames "[^][:alpha:]^]\\^$x^".toList ∧
    unescapedAnchor? "[^][:alpha:]^]\\^$x^".toList = some '$' ∧
    (∃ before after, "[^][:alpha:]^]\\^$x^".toList = before ++ '$' :: after ∧
      Passed NoName before ('$' :: after)) ∧
    InClass NoColon ['['] "[:]$".toList ∧ unescapedAnchor? "[[:]$".toList = none ∧
    unescapedAnchor? "[[:]$:]^]$".toList = unescapedAnchor? "[[:alpha:]^]$".toList := by
  have hplace : ∀ n < "[^][:alpha:]^]\\^$x^".toList.length,
      ("[^][:alpha:]^]\\^$x^".toList.drop n).take 2 = ['[', ':'] → n = 3 := by decide +kernel
  have hnames : OnlyNames "[^][:alpha:]^]\\^$x^".toList := by
    refine onlyNames_of_drop fun n hn ht => ?_
    rw [hplace n hn ht]
    exact ⟨"alpha".toList, "^]\\^$x^".toList,
      ⟨"alpha".toList, by decide, List.all_eq_true.1 (by decide), .inl rfl⟩, by decide +kernel⟩
  have hfound : unescapedAnchor? "[^][:alpha:]^]\\^$x^".toList = some '$' := by decide +kernel
  have hin (after : List Char) : InClass NoColon ['['] ('[' :: ':' :: after) :=
    ⟨[], [], [], rfl, .nil, .none (by simp) (by simp), .nil⟩
  have hopen := (unescapedAnchor?_iff "[[:]$".toList).2 ['['] [']', '$'] (by decide) (hin _)
  have hclosed := (unescapedAnchor?_iff "[[:]$:]^]$".toList).2 ['['] "]$:]^]$".toList
    (by decide +kernel) (hin _)
  refine ⟨hnames, hfound, (((unescapedAnchor?_iff _).1 hnames '$').1 hfound).2, ?_, ?_, ?_⟩
  · exact hin [']', '$']
  · exact hopen.1 (by decide)
  · exact hclosed.2 [']', '$'] ['^', ']', '$'] (by decide +kernel) (by decide)

/-- A class of two brackets with a colon between them: the anchor behind it is not found. -/
theorem unescapedAnchor?_bracketColon :
    Specification.diagnose .question "[[[[:]$]]//" = [] ∧
    Passed NoName ['[', '[', ':', ']'] ['$'] ∧
    unescapedAnchor? ['[', '[', ':', ']', '$'] = none := by
  have hname : NoName [':', ']', '$'] := by
    rintro ⟨name, rest, -, ht⟩
    have hcolon : ':' ∈ [']', '$'] := by
      rw [show [']', '$'] = name ++ ':' :: ']' :: rest from (List.cons.inj ht).2]
      simp
    exact absurd hcolon (by decide)
  have hmembers : Members NoName ['[', ':'] [']', '$'] :=
    .bracket hname (.char (by decide) .nil)
  refine ⟨by decide +kernel, ?_, by decide⟩
  exact .cls (.none (by decide) (by decide)) hmembers .nil

end Anchors

end AnswerGrading
