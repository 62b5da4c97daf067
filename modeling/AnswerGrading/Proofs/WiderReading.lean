import AnswerGrading.Proofs.ForkedReading
import AnswerGrading.Proofs.PatternReading

/-!
Two readers side by side. One has a space where the other has a run of blanks in a group; as long as
each such space is a piece of its own, both read the same expression, but for the wider pieces.
-/

namespace AnswerGrading.Regex

def Scope.isConditional : Scope → Bool
  | .condition => true
  | .branches _ _ => true
  | _ => false

namespace Reading

/-- Only expressions differ, and those of the second reading are wider. -/
inductive Wider (r : Reading) : Reading → Prop
  | mk {level : Level} {opened : List (Scope × Level)} (hl : r.level.Wider level)
      (ho : List.Forall₂ (fun x y => y.1 = x.1 ∧ x.2.Wider y.2) r.opened opened) :
      Wider r { r with level := level, opened := opened }

def Unconditional (r : Reading) : Prop :=
  ∀ x ∈ r.opened, x.1.isConditional = false

/-- White space counts, no group is referred to by its number, and no conditional is open. -/
structure Plain (r : Reading) : Prop where
  spaced : r.modes.spaced = false
  numbered : r.numbered = false
  unconditional : r.Unconditional

/-- What one reader makes of its text, a wider one makes of the other text too, if the step stops
before the fork and opens no conditional. -/
def Follows (t t' xs : List Char)
    (x x' : Except Defect (Reading × Option Expression × List Char)) : Prop :=
  ∀ r e rest, x = .ok (r, e, rest) → r.Unconditional → rest <:+ xs ∧
    (t.length ≤ rest.length → ∃ r' e' rest', x' = .ok (r', e', rest') ∧ r.Wider r' ∧
      Option.Rel Expression.Wider e e' ∧ Forked t t' rest rest')

namespace Wider

variable {r r' : Reading}

theorem refl (r : Reading) : r.Wider r :=
  .mk (.refl r.level) (List.forall₂_same.2 fun x _ => ⟨rfl, .refl x.2⟩)

theorem modes (h : r.Wider r') : r'.modes = r.modes := by
  cases h
  rfl

theorem numbered (h : r.Wider r') : r'.numbered = r.numbered := by
  cases h
  rfl

theorem length_opened (h : r.Wider r') : r'.opened.length = r.opened.length := by
  cases h with
  | mk hl ho => exact ho.length_eq.symm

theorem caselessChar (h : r.Wider r') (c : Char) : r'.caselessChar c = r.caselessChar c := by
  cases h
  rfl

theorem openScope (h : r.Wider r') (scope : Scope) :
    (r.openScope scope).Wider (r'.openScope scope) := by
  cases h with
  | mk hl ho => exact .mk (.refl {}) (.cons ⟨rfl, hl⟩ ho)

theorem newCapture (h : r.Wider r') : r.newCapture.Wider r'.newCapture := by
  cases h with
  | mk hl ho => exact .mk (.refl {}) (.cons ⟨rfl, hl⟩ ho)

theorem newNamed (h : r.Wider r') (id : List Char) :
    (r.newNamed id).Wider (r'.newNamed id) := by
  cases h with
  | mk hl ho => exact .mk (.refl {}) (.cons ⟨rfl, hl⟩ ho)

theorem withModes (h : r.Wider r') (m : Modes) :
    Wider { r with modes := m } { r' with modes := m } := by
  cases h with
  | mk hl ho => exact .mk hl ho

theorem bar (h : r.Wider r') : r.bar.Wider r'.bar := by
  cases h with
  | mk hl ho => exact .mk hl.bar ho

theorem push (h : r.Wider r') {e e' : Expression} (he : e.Wider e') :
    (r.push e).Wider (r'.push e') := by
  cases h with
  | mk hl ho => exact .mk (hl.push he) ho

theorem reference (h : r.Wider r') {group : Nat} {e : Expression} {r₁ : Reading}
    (hr : r.reference group = .ok (e, r₁)) :
    ∃ r₁', r'.reference group = .ok (e, r₁') ∧ r₁.Wider r₁' := by
  cases h with
  | mk hl ho =>
      unfold Reading.reference at hr
      split at hr
      · rename_i hg
        cases hr
        exact ⟨_, if_pos hg, .mk hl ho⟩
      · cases hr

theorem numberedReference (h : r.Wider r') {group : Nat} {e : Expression} {r₁ : Reading}
    (hr : r.numberedReference group = .ok (e, r₁)) :
    ∃ r₁', r'.numberedReference group = .ok (e, r₁') ∧ r₁.Wider r₁' := by
  have hn : Wider { r with numbered := true } { r' with numbered := true } := by
    cases h with
    | mk hl ho => exact .mk hl ho
  exact hn.reference hr

theorem namedReference (h : r.Wider r') {id : List Char} {e : Expression} {r₁ : Reading}
    (hr : r.namedReference id = .ok (e, r₁)) :
    ∃ r₁', r'.namedReference id = .ok (e, r₁') ∧ r₁.Wider r₁' := by
  have hg : r'.groupOf? id = r.groupOf? id := by
    cases h
    rfl
  unfold Reading.namedReference at hr ⊢
  rw [hg]
  split at hr
  · exact h.reference hr
  · cases hr

theorem levelBody (h : r.Wider r') {e : Expression} (hr : r.levelBody = .ok e) :
    ∃ e', r'.levelBody = .ok e' ∧ e.Wider e' := by
  cases h with
  | mk hl ho =>
      unfold Reading.levelBody at hr ⊢
      split at hr
      · cases hr
      · rename_i hn
        cases hr
        refine ⟨_, if_neg fun hmixed => hn ?_, hl.body⟩
        exact ⟨hl.alternatives_eq_nil_iff.1 hmixed.1, hmixed.2⟩

theorem closeScope (h : r.Wider r') (hu : r.Unconditional) {here here' : Nat} {r₁ : Reading}
    {e : Option Expression} (hr : r.closeScope here = .ok (r₁, e)) :
    ∃ r₁' e', r'.closeScope here' = .ok (r₁', e') ∧ r₁.Wider r₁' ∧
      Option.Rel Expression.Wider e e' := by
  have hbodies {e : Expression} := h.levelBody (e := e)
  cases h with
  | @mk level opened hl ho =>
      unfold Reading.closeScope at hr ⊢
      unfold Unconditional at hu
      cases hopened : r.opened with
      | nil =>
          rw [hopened] at hr
          cases hr
      | cons x outer =>
          obtain ⟨scope, parent⟩ := x
          rw [hopened] at hr ho hu
          cases ho with
          | @cons _ y _ outer' hx houter =>
              obtain ⟨scope', parent'⟩ := y
              obtain ⟨rfl, hparent⟩ : scope' = scope ∧ parent.Wider parent' := hx
              obtain ⟨body, hbody, hr⟩ := bind_eq_ok_iff.1 hr
              obtain ⟨body', hbody', hwider⟩ := hbodies hbody
              have hclosed : Wider { r with level := parent, opened := outer }
                  { r with level := parent', opened := outer' } := .mk hparent houter
              simp only [bind, Except.bind, hbody']
              have hscope := hu _ (List.mem_cons_self ..)
              cases scope' with
              | capture g =>
                  cases hr
                  exact ⟨_, _, rfl, hclosed, .some (.capture g hwider)⟩
              | modes outer =>
                  cases hr
                  exact ⟨_, _, rfl, hclosed.withModes outer, .some hwider⟩
              | look behind negated =>
                  cases hr
                  exact ⟨_, _, rfl, hclosed, .some (.look behind negated hwider)⟩
              | atomic =>
                  cases hr
                  exact ⟨_, _, rfl, hclosed, .some (.atomic hwider)⟩
              | condition => cases hscope
              | branches c start => cases hscope

end Wider

def advance (r : Reading) (cs : List Char) : Except Defect (Reading × List Char) := do
  let (r, atom, rest) ← r.step cs
  match atom with
  | none => return (r, rest)
  | some e =>
      let (e, rest) ← quantify r.modes e rest
      return (r.push e, rest)

theorem run_succ (fuel : Nat) {r : Reading} {c : Char} {cs ds : List Char}
    (hskip : r.modes.skip cs = .ok (c :: ds)) :
    run (fuel + 1) r cs = r.advance (c :: ds) >>= fun (r, rest) => run fuel r rest := by
  rw [run, hskip]
  simp only [bind, Except.bind, advance]
  cases r.step (c :: ds) with
  | error d => rfl
  | ok found =>
      obtain ⟨r₁, atom, rest⟩ := found
      cases atom with
      | none => rfl
      | some e =>
          dsimp only
          cases quantify r₁.modes e rest <;> rfl

section Groups

def openers : List (List Char × Scope) :=
  [(['?', '='], .look false false), (['?', '!'], .look false true),
    (['?', '<', '='], .look true false), (['?', '<', '!'], .look true true),
    (['?', '>'], .atomic)]

variable {r : Reading} (hm : r.modes.spaced = false) (hd : ¬maxDepth ≤ r.opened.length + 1)

include hm hd

theorem openGroup_scope {opener : List Char} {scope : Scope} (h : (opener, scope) ∈ openers)
    {rest : List Char} (hc : CommentFree (opener ++ rest)) :
    r.openGroup (opener ++ rest) = .ok (r.openScope scope, none, rest) := by
  rw [openGroup, if_neg hd, Modes.skip_of_commentFree hm hc]
  simp only [openers, List.mem_cons, List.not_mem_nil, or_false, Prod.mk.injEq] at h
  rcases h with ⟨rfl, rfl⟩ | ⟨rfl, rfl⟩ | ⟨rfl, rfl⟩ | ⟨rfl, rfl⟩ | ⟨rfl, rfl⟩
  all_goals rfl

theorem openGroup_capture {cs : List Char} (hc : CommentFree cs) (h : cs.head? ≠ some '?') :
    r.openGroup cs = .ok (r.newCapture, none, cs) := by
  rw [openGroup, if_neg hd, Modes.skip_of_commentFree hm hc]
  simp only [bind, Except.bind]
  split
  case h_11 => rfl
  all_goals exact absurd rfl h

theorem openGroup_named {cs : List Char} (hc : CommentFree ('?' :: '<' :: cs))
    (hahead : cs.head? ≠ some '=') (hnot : cs.head? ≠ some '!') :
    r.openGroup ('?' :: '<' :: cs) =
      match groupName? '>' cs with
      | some (id, rest) => .ok (r.newNamed id, none, rest)
      | none => .error .badName := by
  rw [openGroup, if_neg hd, Modes.skip_of_commentFree hm hc]
  simp only [bind, Except.bind]
  split
  case h_3 he => cases he; exact absurd rfl hahead
  case h_4 he => cases he; exact absurd rfl hnot
  case h_5 he => cases he; rfl
  case h_10 hname _ _ _ _ he => cases he; exact (hname cs rfl).elim
  case h_11 hname _ _ _ _ _ => exact (hname cs rfl).elim
  all_goals rename_i he; cases he

theorem openGroup_longNamed {cs : List Char} (hc : CommentFree ('?' :: 'P' :: '<' :: cs)) :
    r.openGroup ('?' :: 'P' :: '<' :: cs) =
      match groupName? '>' cs with
      | some (id, rest) => .ok (r.newNamed id, none, rest)
      | none => .error .badName := by
  rw [openGroup, if_neg hd, Modes.skip_of_commentFree hm hc]
  rfl

theorem openGroup_reference {cs : List Char} (hc : CommentFree ('?' :: 'P' :: '=' :: cs)) :
    r.openGroup ('?' :: 'P' :: '=' :: cs) =
      match groupName? ')' cs with
      | some (id, rest) => do
          let (e, r) ← r.namedReference id
          return (r, some e, rest)
      | none => .error .badName := by
  rw [openGroup, if_neg hd, Modes.skip_of_commentFree hm hc]
  rfl

theorem openGroup_conditional {cs : List Char} (hc : CommentFree ('?' :: '(' :: cs)) :
    r.openGroup ('?' :: '(' :: cs) = r.openConditional cs := by
  rw [openGroup, if_neg hd, Modes.skip_of_commentFree hm hc]
  rfl

theorem openGroup_options {cs : List Char} (hc : CommentFree ('?' :: cs))
    (h : ∀ c ∈ ['=', '!', '<', 'P', '>', '('], cs.head? ≠ some c) :
    r.openGroup ('?' :: cs) = r.openOptions cs := by
  rw [openGroup, if_neg hd, Modes.skip_of_commentFree hm hc]
  simp only [bind, Except.bind]
  split
  case h_10 he => cases he; rfl
  case h_11 hoption => exact (hoption cs rfl).elim
  all_goals rename_i he; cases he; exact (h _ (by decide) rfl).elim

theorem openGroup_letterP {cs : List Char} (hc : CommentFree ('?' :: 'P' :: cs))
    (h : ∀ c ∈ ['<', '='], cs.head? ≠ some c) :
    r.openGroup ('?' :: 'P' :: cs) = r.openOptions ('P' :: cs) := by
  rw [openGroup, if_neg hd, Modes.skip_of_commentFree hm hc]
  simp only [bind, Except.bind]
  split
  case h_6 he => cases he; exact (h _ (by decide) rfl).elim
  case h_7 he => cases he; exact (h _ (by decide) rfl).elim
  case h_10 he => cases he; rfl
  case h_11 hoption => exact (hoption ('P' :: cs) rfl).elim
  all_goals rename_i he; cases he

end Groups

section Steps

variable {t t' xs ys : List Char} {r r' : Reading}

theorem follows_reference (h : Forked t t' xs ys)
    {x x' : Except Defect (Expression × Reading)}
    (hx : ∀ e r₁, x = .ok (e, r₁) → ∃ r₁', x' = .ok (e, r₁') ∧ r₁.Wider r₁') :
    Follows t t' xs
      (do
        let (e, r) ← x
        return (r, some e, xs))
      (do
        let (e, r) ← x'
        return (r, some e, ys)) := by
  intro r₁ e rest hread _
  obtain ⟨⟨e', r₂⟩, href, hread⟩ := bind_eq_ok_iff.1 hread
  cases hread
  obtain ⟨r₂', href', hw'⟩ := hx _ _ href
  exact ⟨List.suffix_rfl, fun _ => ⟨r₂', some e', ys, by rw [href']; rfl, hw', .some (.refl e'), h⟩⟩

theorem exists_cons_of_openOptions (hm : r.modes.spaced = false) (hx : CommentFree xs)
    {found : Reading × Option Expression × List Char} (hread : r.openOptions xs = .ok found) :
    ∃ c cs, xs = c :: cs ∧ (c = ')' ∨ c = ':' ∨ optionModes? false r.modes c ≠ none) := by
  rw [openOptions] at hread
  obtain ⟨⟨m, colon, rest⟩, hoptions, -⟩ := bind_eq_ok_iff.1 hread
  obtain ⟨c, cs, hskip, -⟩ := exists_skip_of_options hx hoptions
  obtain rfl : xs = c :: cs := Except.ok.inj ((Modes.skip_of_commentFree hm hx).symm.trans hskip)
  refine ⟨c, cs, rfl, ?_⟩
  rw [options_eq hskip] at hoptions
  split at hoptions
  · exact .inl ‹_›
  · split at hoptions
    · exact .inr (.inl ‹_›)
    · split at hoptions
      · rename_i hmodes
        exact .inr (.inr (by rw [hmodes]; simp))
      · cases hoptions

theorem openConditional_conditional {rest : List Char} {r₁ : Reading} {e : Option Expression}
    (hread : r.openConditional xs = .ok (r₁, e, rest)) : ¬r₁.Unconditional := by
  have hgroup {found : Except Defect (Expression × Reading)} {cs : List Char}
      (hread : groupConditional found cs = .ok (r₁, e, rest)) : ¬r₁.Unconditional := by
    obtain ⟨⟨c, r₂⟩, -, hread⟩ := bind_eq_ok_iff.1 hread
    dsimp only at hread
    split at hread
    · cases hread
      exact fun hu => nomatch hu _ (List.mem_cons_self ..)
    · cases hread
  unfold openConditional at hread
  split at hread
  · exact hgroup hread
  · exact hgroup hread
  · split at hread
    · cases hread
    · split at hread
      · cases hread
      · cases hread
        exact fun hu => nomatch hu _ (List.mem_cons_self ..)
  · cases hread

variable (hw : r.Wider r')

theorem Follows.of_suffix {x x' : Except Defect (Reading × Option Expression × List Char)}
    (h : Follows t t' xs x x') {cs : List Char} (hs : xs <:+ cs) : Follows t t' cs x x' :=
  fun r e rest hx hu => ⟨(h r e rest hx hu).1.trans hs, (h r e rest hx hu).2⟩

theorem Follows.bind {α : Type} {x x' : Except Defect (α × List Char)}
    {f f' : α × List Char → Except Defect (Reading × Option Expression × List Char)}
    (h : Keeps t t' xs x x')
    (hf : ∀ a {t t' ys zs}, Forked t t' ys zs → Follows t t' ys (f (a, ys)) (f' (a, zs))) :
    Follows t t' xs (x >>= f) (x' >>= f') := by
  intro r e rest hread hu
  obtain ⟨⟨a, ys⟩, ha, hread⟩ := bind_eq_ok_iff.1 hread
  obtain ⟨hys, hk⟩ := h a ys ha
  have hrest := (hf a (.refl ys) r e rest hread hu).1
  refine ⟨hrest.trans hys, fun hl => ?_⟩
  obtain ⟨zs, hz, hfork⟩ := hk (Nat.le_trans hl hrest.length_le)
  obtain ⟨r', e', rest', hread', hw⟩ := (hf a hfork r e rest hread hu).2 hl
  exact ⟨r', e', rest', by rw [hz]; exact hread', hw⟩

theorem follows_error {d : Defect}
    {x' : Except Defect (Reading × Option Expression × List Char)} :
    Follows t t' xs (.error d) x' :=
  fun _ _ _ hx => nomatch hx

include hw

theorem Wider.follows (h : Forked t t' xs ys) {e e' : Option Expression}
    (he : Option.Rel Expression.Wider e e') :
    Follows t t' xs (.ok (r, e, xs)) (.ok (r', e', ys)) := by
  intro r₁ e₁ rest hx _
  cases hx
  exact ⟨List.suffix_rfl, fun _ => ⟨r', e', ys, rfl, hw, he, h⟩⟩

theorem openOptions_follows (hx : CommentFree xs) (hy : CommentFree ys) (h : Forked t t' xs ys) :
    Follows t t' xs (r.openOptions xs) (r'.openOptions ys) := by
  intro r₁ e rest hread _
  rw [openOptions] at hread
  obtain ⟨⟨m, colon, rest'⟩, hoptions, hread⟩ := bind_eq_ok_iff.1 hread
  obtain ⟨-, ds, -, hds, hrest⟩ := exists_skip_of_options hx hoptions
  have hforked (hl : t.length ≤ rest'.length) :
      ∃ rest'', options ys.length (ys.length + 1) false r.modes ys = .ok (m, colon, rest'') ∧
        Forked t t' rest' rest'' :=
    options_forked (Nat.succ_le_succ h.length_le) (Nat.add_comm ..) hx hy h hoptions hl
  rw [openOptions, hw.modes]
  cases colon with
  | true =>
      cases hread
      refine ⟨hrest.trans hds, fun hl => ?_⟩
      obtain ⟨rest', hy', hf⟩ := hforked hl
      rw [hy']
      exact ⟨_, _, rest', rfl, (hw.openScope _).withModes m, .none, hf⟩
  | false =>
      cases hread
      refine ⟨hrest.trans hds, fun hl => ?_⟩
      obtain ⟨rest', hy', hf⟩ := hforked hl
      rw [hy']
      exact ⟨_, _, rest', rfl, hw.withModes m, .some (.refl .empty), hf⟩

section Openings

variable (hm : r.modes.spaced = false) (hd : ¬maxDepth ≤ r.opened.length + 1)

include hm hd

theorem Wider.open_conditions : r'.modes.spaced = false ∧ ¬maxDepth ≤ r'.opened.length + 1 := by
  rw [hw.modes, hw.length_opened]
  exact ⟨hm, hd⟩

theorem openGroup_scope_follows (opener : List Char) (scope : Scope)
    (ho : (opener, scope) ∈ openers) (hx : CommentFree (opener ++ xs))
    (hy : CommentFree (opener ++ ys)) (h : Forked t t' xs ys) :
    Follows t t' (opener ++ xs) (r.openGroup (opener ++ xs)) (r'.openGroup (opener ++ ys)) := by
  obtain ⟨hm', hd'⟩ := hw.open_conditions hm hd
  rw [openGroup_scope hm hd ho hx, openGroup_scope hm' hd' ho hy]
  exact ((hw.openScope scope).follows h .none).of_suffix (List.suffix_append ..)

omit hm hd in
theorem newNamed_follows (h : Forked t t' xs ys) :
    Follows t t' xs
      (match groupName? '>' xs with
        | some (id, rest) => .ok (r.newNamed id, none, rest)
        | none => .error .badName)
      (match groupName? '>' ys with
        | some (id, rest) => .ok (r'.newNamed id, none, rest)
        | none => .error .badName) := by
  cases hname : groupName? '>' xs with
  | none => exact follows_error
  | some found =>
      obtain ⟨hs, rest', hy, hf⟩ := groupName?_forked (by decide) h hname
      rw [hy]
      exact ((hw.newNamed found.1).follows hf .none).of_suffix hs

theorem openGroup_angle_follows (hx : CommentFree ('?' :: '<' :: xs))
    (hy : CommentFree ('?' :: '<' :: ys)) (h : Forked t t' xs ys) :
    Follows t t' ('?' :: '<' :: xs) (r.openGroup ('?' :: '<' :: xs))
      (r'.openGroup ('?' :: '<' :: ys)) := by
  obtain ⟨hm', hd'⟩ := hw.open_conditions hm hd
  rcases h.head_cases (c := '=') (by decide) (by decide) with
    ⟨as, bs, rfl, rfl, hf⟩ | ⟨hahead, hahead'⟩
  · exact openGroup_scope_follows hw hm hd ['?', '<', '='] (.look true false)
      (by simp [openers]) hx hy hf
  rcases h.head_cases (c := '!') (by decide) (by decide) with
    ⟨as, bs, rfl, rfl, hf⟩ | ⟨hnot, hnot'⟩
  · exact openGroup_scope_follows hw hm hd ['?', '<', '!'] (.look true true)
      (by simp [openers]) hx hy hf
  · rw [openGroup_named hm hd hx hahead hnot, openGroup_named hm' hd' hy hahead' hnot']
    exact (newNamed_follows hw h).of_suffix (List.suffix_append ['?', '<'] xs)

theorem openGroup_letterP_follows (hx : CommentFree ('?' :: 'P' :: xs))
    (hy : CommentFree ('?' :: 'P' :: ys)) (h : Forked t t' xs ys) :
    Follows t t' ('?' :: 'P' :: xs) (r.openGroup ('?' :: 'P' :: xs))
      (r'.openGroup ('?' :: 'P' :: ys)) := by
  obtain ⟨hm', hd'⟩ := hw.open_conditions hm hd
  rcases h.head_cases (c := '<') (by decide) (by decide) with
    ⟨as, bs, rfl, rfl, hf⟩ | ⟨hname, -⟩
  · rw [openGroup_longNamed hm hd hx, openGroup_longNamed hm' hd' hy]
    exact (newNamed_follows hw hf).of_suffix (List.suffix_append ['?', 'P', '<'] as)
  rcases h.head_cases (c := '=') (by decide) (by decide) with
    ⟨as, bs, rfl, rfl, hf⟩ | ⟨hback, -⟩
  · rw [openGroup_reference hm hd hx, openGroup_reference hm' hd' hy]
    cases hid : groupName? ')' as with
    | none => exact follows_error
    | some found =>
        obtain ⟨hs, rest', hy', hrest⟩ := groupName?_forked (by decide) hf hid
        rw [hy']
        exact (follows_reference hrest fun _ _ => hw.namedReference).of_suffix
          (hs.trans (List.suffix_append ['?', 'P', '='] as))
  · rw [openGroup_letterP hm hd hx (by simp [hname, hback])]
    intro r₁ e rest hread _
    have hsuffix := List.suffix_cons '?' ('P' :: xs)
    obtain ⟨c, cs, he, hoption⟩ := exists_cons_of_openOptions hm (hx.of_suffix hsuffix) hread
    cases he
    simp [optionModes?] at hoption

theorem openGroup_options_follows (hx : CommentFree ('?' :: xs)) (hy : CommentFree ('?' :: ys))
    (h : Forked t t' xs ys)
    (hhead : ∀ c ∈ ['=', '!', '<', 'P', '>', '('], xs.head? ≠ some c) :
    Follows t t' ('?' :: xs) (r.openGroup ('?' :: xs)) (r'.openGroup ('?' :: ys)) := by
  obtain ⟨hm', hd'⟩ := hw.open_conditions hm hd
  have hxs := List.suffix_cons '?' xs
  have hys := List.suffix_cons '?' ys
  rw [openGroup_options hm hd hx hhead]
  intro r₁ e rest hread hu
  obtain ⟨c, cs, rfl, hoption⟩ := exists_cons_of_openOptions hm (hx.of_suffix hxs) hread
  -- what begins with an option or a bracket does not begin with the space that forks
  have hc : c ≠ ' ' := by
    rintro rfl
    simp [optionModes?] at hoption
  obtain ⟨ds, rfl, -⟩ := h.of_ne_space hc
  rw [openGroup_options hm' hd' hy hhead]
  exact (openOptions_follows hw (hx.of_suffix hxs) (hy.of_suffix hys) h).of_suffix hxs r₁ e rest
    hread hu

end Openings

theorem openGroup_follows (hm : r.modes.spaced = false) (hx : CommentFree xs)
    (hy : CommentFree ys) (h : Forked t t' xs ys) :
    Follows t t' xs (r.openGroup xs) (r'.openGroup ys) := by
  by_cases hd : maxDepth ≤ r.opened.length + 1
  · rw [openGroup, if_pos hd]
    exact follows_error
  rcases h.head_cases (c := '?') (by decide) (by decide) with ⟨zs, ws, rfl, rfl, hzs⟩ | ⟨hnx, hny⟩
  · rcases hzs.head_cases (c := '=') (by decide) (by decide) with
      ⟨as, bs, rfl, rfl, hf⟩ | ⟨hx₁, -⟩
    · exact openGroup_scope_follows hw hm hd ['?', '='] (.look false false)
        (by simp [openers]) hx hy hf
    rcases hzs.head_cases (c := '!') (by decide) (by decide) with
      ⟨as, bs, rfl, rfl, hf⟩ | ⟨hx₂, -⟩
    · exact openGroup_scope_follows hw hm hd ['?', '!'] (.look false true)
        (by simp [openers]) hx hy hf
    rcases hzs.head_cases (c := '>') (by decide) (by decide) with
      ⟨as, bs, rfl, rfl, hf⟩ | ⟨hx₃, -⟩
    · exact openGroup_scope_follows hw hm hd ['?', '>'] .atomic
        (by simp [openers]) hx hy hf
    rcases hzs.head_cases (c := '<') (by decide) (by decide) with
      ⟨as, bs, rfl, rfl, hf⟩ | ⟨hx₄, -⟩
    · exact openGroup_angle_follows hw hm hd hx hy hf
    rcases hzs.head_cases (c := 'P') (by decide) (by decide) with
      ⟨as, bs, rfl, rfl, hf⟩ | ⟨hx₅, -⟩
    · exact openGroup_letterP_follows hw hm hd hx hy hf
    by_cases hx₆ : zs.head? = some '('
    · obtain ⟨as, rfl⟩ := List.head?_eq_some_iff.1 hx₆
      rw [openGroup_conditional hm hd hx]
      exact fun r₁ e rest hread hu => absurd hu (openConditional_conditional hread)
    · exact openGroup_options_follows hw hm hd hx hy hzs (by simp [hx₁, hx₂, hx₃, hx₄, hx₅, hx₆])
  · obtain ⟨hm', hd'⟩ := hw.open_conditions hm hd
    rw [openGroup_capture hm hd hx hnx, openGroup_capture hm' hd' hy hny]
    exact hw.newCapture.follows h .none

theorem escaped_follows (h : Forked t t' xs ys) :
    Follows t t' xs (r.escaped xs) (r'.escaped ys) := by
  rw [escaped, escaped, hw.modes]
  refine .bind (escape_keeps false r.modes.caseless h) fun found {_ _ ys zs} hf => ?_
  cases found with
  | numbered c =>
      have hc := hw.caselessChar c
      dsimp only
      rw [hc]
      exact hw.follows hf (.some (.refl _))
  | exact c => exact hw.follows hf (.some (.refl _))
  | set s => exact hw.follows hf (.some (.refl _))
  | piece e => exact hw.follows hf (.some (.refl _))
  | number n => exact follows_reference hf fun _ _ => hw.numberedReference
  | name id => exact follows_reference hf fun _ _ => hw.namedReference

theorem bracket_follows (h : Forked t t' xs ys) :
    Follows t t' xs (r.step ('[' :: xs)) (r'.step ('[' :: ys)) := by
  intro r₁ e rest hread _
  obtain ⟨⟨e', rest'⟩, hbracket, hread⟩ := map_eq_ok_iff.1 hread
  cases hread
  obtain ⟨hs, hkeep⟩ := bracket_keeps r.modes.caseless h _ _ hbracket
  refine ⟨hs, fun hl => ?_⟩
  obtain ⟨rest', hy, hf⟩ := hkeep hl
  refine ⟨r', some e', rest', ?_, hw, .some (.refl e'), hf⟩
  rw [step, hw.modes, hy]
  rfl

theorem close_follows (hu : r.Unconditional) (h : Forked t t' xs ys) :
    Follows t t' xs (r.step (')' :: xs)) (r'.step (')' :: ys)) := by
  intro r₁ e rest hread _
  obtain ⟨⟨r₂, e'⟩, hclose, hread⟩ := bind_eq_ok_iff.1 hread
  cases hread
  obtain ⟨r₂', e'', hclose', hw', he⟩ := hw.closeScope hu hclose
  refine ⟨List.suffix_rfl, fun _ => ⟨r₂', e'', ys, ?_, hw', he, h⟩⟩
  rw [step, hclose']
  rfl

theorem step_follows (hp : r.Plain) {c : Char} (hx : CommentFree (c :: xs))
    (hy : CommentFree (c :: ys)) (h : Forked t t' xs ys) :
    Follows t t' xs (r.step (c :: xs)) (r'.step (c :: ys)) := by
  have hxs := hx.of_suffix (List.suffix_cons c xs)
  have hys := hy.of_suffix (List.suffix_cons c ys)
  by_cases hc : c ∈ special
  · simp only [special, List.mem_cons, List.not_mem_nil, or_false] at hc
    rcases hc with rfl | rfl | rfl | rfl | rfl | rfl | rfl | rfl | rfl | rfl | rfl
    · exact close_follows hw hp.unconditional h
    · exact hw.bar.follows h .none
    · exact follows_error
    · exact follows_error
    · exact follows_error
    · exact openGroup_follows hw hp.spaced hxs hys h
    · exact escaped_follows hw h
    · exact bracket_follows hw h
    all_goals
      rw [step, step, hw.modes]
      exact hw.follows h (.some (.refl _))
  · have hliteral (r : Reading) (cs : List Char) :
        r.step (c :: cs) = .ok (r, some (r.caselessChar c), cs) := by
      unfold special at hc
      unfold step
      split <;> simp_all
    rw [hliteral, hliteral, hw.caselessChar]
    exact hw.follows h (.some (.refl _))

theorem advance_forked (hp : r.Plain) {c : Char} (hx : CommentFree (c :: xs))
    (hy : CommentFree (c :: ys)) (h : Forked t t' xs ys) {r₁ : Reading} {rest : List Char}
    (hread : r.advance (c :: xs) = .ok (r₁, rest)) (hp₁ : r₁.Plain) :
    rest <:+ xs ∧ (t.length ≤ rest.length → ∃ r₁' rest', r'.advance (c :: ys) = .ok (r₁', rest') ∧
      r₁.Wider r₁' ∧ Forked t t' rest rest') := by
  obtain ⟨⟨r₂, atom, zs⟩, hstep, hread⟩ := bind_eq_ok_iff.1 hread
  cases atom with
  | none =>
      cases hread
      obtain ⟨hs, hfollow⟩ := step_follows hw hp hx hy h _ _ _ hstep hp₁.unconditional
      refine ⟨hs, fun hl => ?_⟩
      obtain ⟨r₁', e', rest', hstep', hw', he, hf⟩ := hfollow hl
      cases he
      exact ⟨r₁', rest', by rw [advance, hstep']; rfl, hw', hf⟩
  | some e =>
      obtain ⟨⟨f, rest'⟩, hquantify, hread⟩ := bind_eq_ok_iff.1 hread
      cases hread
      obtain ⟨hs, hfollow⟩ := step_follows hw hp hx hy h _ _ _ hstep hp₁.unconditional
      have hzs := (hx.of_suffix (List.suffix_cons c xs)).of_suffix hs
      have hrest := (quantify_forked hp₁.spaced hzs hzs (.refl zs) (.refl e) hquantify).1
      refine ⟨hrest.trans hs, fun hl => ?_⟩
      obtain ⟨r₂', e', ws, hstep', hw', he, hf⟩ := hfollow (Nat.le_trans hl hrest.length_le)
      cases he with
      | @some _ e' he =>
          have hws := (hy.of_suffix (List.suffix_cons c ys)).of_suffix (h.suffix hf hs)
          obtain ⟨-, f', rest', hquantify', hwider, hf'⟩ :=
            quantify_forked hp₁.spaced hzs hws hf he hquantify
          refine ⟨r₂'.push f', rest', ?_, hw'.push hwider, hf'⟩
          rw [advance, hstep']
          simp only [bind, Except.bind]
          have hm : r₂'.modes = r₂.modes := hw'.modes
          rw [hm, show quantify r₂.modes e' ws = _ from hquantify']
          rfl

end Steps

section Runs

def blankRun (m : Modes) : Expression :=
  .loop 1 none (true != m.swapGreed) (.char (blank.foldedIf m.caseless))

theorem space_within_blank : (CharSet.one ' ').Within blank :=
  .one rfl

theorem blankRun_wider (r : Reading) : (r.caselessChar ' ').Wider (blankRun r.modes) :=
  .run (space_within_blank.foldedIf r.modes.caseless) _

variable {r : Reading} (hm : r.modes.spaced = false)

include hm

theorem advance_open (hd : r.opened.length + 1 < maxDepth) {cs : List Char}
    (hc : CommentFree ('(' :: '?' :: ':' :: cs)) :
    r.advance ('(' :: '?' :: ':' :: cs) = .ok (r.inGroup, cs) := by
  have hoptions : r.openOptions (':' :: cs) = .ok (r.inGroup, none, cs) := by
    have hcolon := hc.of_suffix (List.suffix_append ['(', '?'] (':' :: cs))
    rw [openOptions, options_eq (Modes.skip_of_commentFree hm hcolon)]
    rfl
  have hgroup : r.step ('(' :: '?' :: ':' :: cs) = .ok (r.inGroup, none, cs) := by
    rw [← hoptions]
    exact openGroup_options hm (Nat.not_le.2 hd) (hc.of_suffix (List.suffix_cons ..)) (by simp)
  rw [advance, hgroup]
  rfl

theorem advance_blank {cs : List Char} (hc : CommentFree ('+' :: ')' :: cs)) :
    r.advance ('[' :: ' ' :: '\\' :: 't' :: ']' :: '+' :: ')' :: cs) =
      .ok (r.push (blankRun r.modes), ')' :: cs) := by
  have hbracket (caseless : Bool) (cs : List Char) :
      bracket caseless (' ' :: '\\' :: 't' :: ']' :: cs) =
        .ok (.char (blank.foldedIf caseless), cs) := by
    cases caseless <;> rfl
  have hstep : r.step ('[' :: ' ' :: '\\' :: 't' :: ']' :: '+' :: ')' :: cs) =
      .ok (r, some (.char (blank.foldedIf r.modes.caseless)), '+' :: ')' :: cs) := by
    rw [step, hbracket]
    rfl
  rw [advance, hstep]
  simp only [bind, Except.bind]
  rw [quantify_eq hm _ hc]
  rfl

omit hm in
theorem advance_close (hn : r.numbered = false) (m : Modes) (cs : List Char) :
    (r.inGroup.push (blankRun m)).advance (')' :: cs) =
      quantify r.modes (blankRun m) cs >>= fun (e, rest) => .ok (r.push e, rest) := by
  have hlevel : r.inGroup.push (blankRun m) =
      { r.inGroup with level := ⟨[], [blankRun m]⟩ } := rfl
  rw [hlevel, advance, step_close hn]
  rfl

end Runs

end Reading

end AnswerGrading.Regex
