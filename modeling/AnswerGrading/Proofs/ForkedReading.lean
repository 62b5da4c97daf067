import AnswerGrading.Proofs.ForkedTexts
import AnswerGrading.Proofs.WiderExpressions

/-!
Readings of two texts that fork. Where the first text has neither comments nor spaces that do not
count, each step that stops before the fork is made on the second text too.
-/

namespace AnswerGrading.Regex

variable {t t' xs ys : List Char}

/-- Both readers fail, or both find the same and neither has passed the fork. -/
def Agree {α : Type} (t t' xs : List Char) (x x' : Option (α × List Char)) : Prop :=
  (x = none ∧ x' = none) ∨
    ∃ a rest rest', x = some (a, rest) ∧ x' = some (a, rest') ∧ rest <:+ xs ∧
      Forked t t' rest rest'

theorem Modes.skip_of_commentFree {m : Modes} (hm : m.spaced = false) {cs : List Char}
    (h : CommentFree cs) : m.skip cs = .ok cs := by
  cases cs with
  | nil => rfl
  | cons c cs =>
      simp only [Modes.skip, hm, List.length_cons]
      unfold skipLayout
      split
      · cases ‹_ + 1 = 0›
      · rename_i he
        exact absurd (he ▸ List.infix_append [] ['(', '?', '#'] _) h
      · simp_all
      · simp_all

theorem Forked.head_cases (h : Forked t t' xs ys) {c : Char} (hspace : c ≠ ' ') (hopen : c ≠ '(') :
    (∃ zs ws, xs = c :: zs ∧ ys = c :: ws ∧ Forked t t' zs ws) ∨
      (xs.head? ≠ some c ∧ ys.head? ≠ some c) := by
  by_cases hx : xs.head? = some c
  · obtain ⟨zs, rfl⟩ := List.head?_eq_some_iff.1 hx
    obtain ⟨ws, rfl, hw⟩ := h.of_ne_space hspace
    exact .inl ⟨zs, ws, rfl, rfl, hw⟩
  · exact .inr ⟨hx, fun hy => hx ((h.head?_eq_iff hspace hopen).1 hy)⟩

theorem Agree.of_suffix {α : Type} {x x' : Option (α × List Char)} (h : Agree t t' xs x x')
    {cs : List Char} (hs : xs <:+ cs) : Agree t t' cs x x' := by
  rcases h with h | ⟨a, rest, rest', hx, hy, hr, hf⟩
  · exact .inl h
  · exact .inr ⟨a, rest, rest', hx, hy, hr.trans hs, hf⟩

section Quantities

def closingBrace (q : Quantity) : List Char → Option (Quantity × List Char)
  | '\x7d' :: rest => some (q, rest)
  | _ => none

def upperBound (cs : List Char) : Option Nat × List Char :=
  match decimal? cs with
  | some (n, rest) => (some n, rest)
  | none => (none, cs)

def bracesAfter (least : Nat) : List Char → Option (Quantity × List Char)
  | '\x7d' :: rest => some (⟨least, some least⟩, rest)
  | ',' :: cs => closingBrace ⟨least, (upperBound cs).1⟩ (upperBound cs).2
  | _ => none

def plainBraces (cs : List Char) : Option (Quantity × List Char) :=
  match decimal? cs with
  | some (least, rest) => bracesAfter least rest
  | none => if cs.head? = some ',' then bracesAfter 0 cs else none

theorem upperBound_suffix (cs : List Char) : (upperBound cs).2 <:+ cs := by
  rcases decimal?_forked (.refl cs) with ⟨hn, -⟩ | ⟨n, rest, -, hx, -, hs, -⟩
  · simp [upperBound, hn]
  · simpa [upperBound, hx] using hs.trans (List.tail_suffix cs)

theorem closingBrace_eq (q : Quantity) (rest : List Char) :
    (match rest with
      | '\x7d' :: rest => (pure (q, rest) : Except Defect (Quantity × List Char))
      | _ => .error .badRepeat).toOption = closingBrace q rest := by
  unfold closingBrace
  split <;> rfl

theorem bracesAfter_eq {m : Modes} {rest : List Char} (h : ∀ ds, ds <:+ rest → m.skip ds = .ok ds)
    (least : Nat) :
    (match rest with
      | '\x7d' :: rest => (pure (⟨least, some least⟩, rest) : Except Defect (Quantity × List Char))
      | ',' :: cs => do
          let cs ← m.skip cs
          let (most, cs) := match decimal? cs with
            | some (n, cs) => (some n, cs)
            | none => (none, cs)
          let cs ← m.skip cs
          match cs with
          | '\x7d' :: rest => return (⟨least, most⟩, rest)
          | _ => .error .badRepeat
      | _ => .error .badRepeat).toOption = bracesAfter least rest := by
  unfold bracesAfter
  split
  · rfl
  · rename_i ds
    have hds := List.suffix_cons ',' ds
    have hmost := h _ ((upperBound_suffix ds).trans hds)
    rw [h ds hds]
    unfold upperBound at hmost ⊢
    cases hd : decimal? ds with
    | none =>
        simp only [hd] at hmost
        simp only [bind, Except.bind, hd, hmost]
        exact closingBrace_eq _ _
    | some found =>
        simp only [hd] at hmost
        simp only [bind, Except.bind, hd, hmost]
        exact closingBrace_eq _ _
  · rfl

theorem braces?_eq {m : Modes} (hm : m.spaced = false) {cs : List Char} (h : CommentFree cs) :
    (braces? m cs).toOption = plainBraces cs := by
  have hskip {rest : List Char} (hs : rest <:+ cs) : m.skip rest = .ok rest :=
    Modes.skip_of_commentFree hm (h.of_suffix hs)
  have hafter (least : Nat) {rest : List Char} (hs : rest <:+ cs) :=
    bracesAfter_eq (fun _ hds => hskip (hds.trans hs)) least
  rw [braces?, hskip List.suffix_rfl]
  simp only [bind, Except.bind, plainBraces]
  rcases decimal?_forked (.refl cs) with ⟨hn, -⟩ | ⟨n, rest, -, hx, -, hs, -⟩
  · rw [hn]
    by_cases hc : cs.head? = some ','
    · obtain ⟨ds, rfl⟩ := List.head?_eq_some_iff.1 hc
      simp only [pure, Except.pure, hskip List.suffix_rfl, if_pos hc]
      exact hafter 0 List.suffix_rfl
    · rw [if_neg hc]
      split
      · contradiction
      · exact absurd rfl hc
      · rfl
  · have hrest := hs.trans (List.tail_suffix cs)
    rw [hx]
    simp only [pure, Except.pure, hskip hrest]
    exact hafter n hrest

theorem closingBrace_agree (q : Quantity) (h : Forked t t' xs ys) :
    Agree t t' xs (closingBrace q xs) (closingBrace q ys) := by
  rcases h.head_cases (c := '\x7d') (by decide) (by decide) with ⟨zs, ws, rfl, rfl, hw⟩ | ⟨hx, hy⟩
  · exact .inr ⟨q, zs, ws, rfl, rfl, List.suffix_cons .., hw⟩
  · have hnone {cs : List Char} (hc : cs.head? ≠ some '\x7d') : closingBrace q cs = none := by
      unfold closingBrace
      split
      · exact absurd rfl hc
      · rfl
    exact .inl ⟨hnone hx, hnone hy⟩

theorem bracesAfter_agree (least : Nat) (h : Forked t t' xs ys) :
    Agree t t' xs (bracesAfter least xs) (bracesAfter least ys) := by
  rcases h.head_cases (c := '\x7d') (by decide) (by decide) with ⟨zs, ws, rfl, rfl, hw⟩ | ⟨hx, hy⟩
  · exact .inr ⟨_, zs, ws, rfl, rfl, List.suffix_cons .., hw⟩
  rcases h.head_cases (c := ',') (by decide) (by decide) with ⟨zs, ws, rfl, rfl, hw⟩ | ⟨hx', hy'⟩
  · rw [bracesAfter, bracesAfter]
    rcases decimal?_forked hw with ⟨hz, hw'⟩ | ⟨n, rest, rest', hz, hw', hs, hf⟩
    · simp only [upperBound, hz, hw']
      exact (closingBrace_agree _ hw).of_suffix (List.suffix_cons ..)
    · simp only [upperBound, hz, hw']
      exact (closingBrace_agree _ hf).of_suffix
        ((hs.trans (List.tail_suffix zs)).trans (List.suffix_cons ..))
  · have hnone {cs : List Char} (hc : cs.head? ≠ some '\x7d') (hc' : cs.head? ≠ some ',') :
        bracesAfter least cs = none := by
      unfold bracesAfter
      split
      · exact absurd rfl hc
      · exact absurd rfl hc'
      · rfl
    exact .inl ⟨hnone hx hx', hnone hy hy'⟩

theorem plainBraces_agree (h : Forked t t' xs ys) :
    Agree t t' xs (plainBraces xs) (plainBraces ys) := by
  unfold plainBraces
  rcases decimal?_forked h with ⟨hx, hy⟩ | ⟨n, rest, rest', hx, hy, hs, hf⟩
  · rw [hx, hy]
    dsimp only
    rcases h.head_cases (c := ',') (by decide) (by decide) with ⟨zs, ws, rfl, rfl, hw⟩ | ⟨hx, hy⟩
    · exact bracesAfter_agree 0 h
    · exact .inl ⟨if_neg hx, if_neg hy⟩
  · rw [hx, hy]
    exact (bracesAfter_agree n hf).of_suffix (hs.trans (List.tail_suffix xs))

theorem quantity?_agree {m : Modes} (hm : m.spaced = false) (hx : CommentFree xs)
    (hy : CommentFree ys) (h : Forked t t' xs ys) :
    Agree t t' xs (quantity? m xs) (quantity? m ys) := by
  rcases h.head_cases (c := '?') (by decide) (by decide) with ⟨zs, ws, rfl, rfl, hw⟩ | ⟨hx₁, hy₁⟩
  · exact .inr ⟨_, zs, ws, rfl, rfl, List.suffix_cons .., hw⟩
  rcases h.head_cases (c := '*') (by decide) (by decide) with ⟨zs, ws, rfl, rfl, hw⟩ | ⟨hx₂, hy₂⟩
  · exact .inr ⟨_, zs, ws, rfl, rfl, List.suffix_cons .., hw⟩
  rcases h.head_cases (c := '+') (by decide) (by decide) with ⟨zs, ws, rfl, rfl, hw⟩ | ⟨hx₃, hy₃⟩
  · exact .inr ⟨_, zs, ws, rfl, rfl, List.suffix_cons .., hw⟩
  rcases h.head_cases (c := '\x7b') (by decide) (by decide) with
    ⟨zs, ws, rfl, rfl, hw⟩ | ⟨hx₄, hy₄⟩
  · rw [quantity?, quantity?, braces?_eq hm (hx.of_suffix (List.suffix_cons ..)),
      braces?_eq hm (hy.of_suffix (List.suffix_cons ..))]
    exact (plainBraces_agree hw).of_suffix (List.suffix_cons ..)
  · have hnone {cs : List Char} (h₁ : cs.head? ≠ some '?') (h₂ : cs.head? ≠ some '*')
        (h₃ : cs.head? ≠ some '+') (h₄ : cs.head? ≠ some '\x7b') : quantity? m cs = none := by
      unfold quantity?
      split
      · exact absurd rfl h₁
      · exact absurd rfl h₂
      · exact absurd rfl h₃
      · exact absurd rfl h₄
      · rfl
    exact .inl ⟨hnone hx₁ hx₂ hx₃ hx₄, hnone hy₁ hy₂ hy₃ hy₄⟩

def greed : List Char → Bool × List Char
  | '?' :: rest => (false, rest)
  | rest => (true, rest)

def possessive (e : Expression) : List Char → Expression × List Char
  | '+' :: rest => (.atomic e, rest)
  | rest => (e, rest)

theorem greed_suffix (cs : List Char) : (greed cs).2 <:+ cs := by
  unfold greed
  split
  · exact List.suffix_cons ..
  · exact List.suffix_rfl

theorem greed_forked (h : Forked t t' xs ys) :
    (greed ys).1 = (greed xs).1 ∧ Forked t t' (greed xs).2 (greed ys).2 := by
  rcases h.head_cases (c := '?') (by decide) (by decide) with ⟨zs, ws, rfl, rfl, hw⟩ | ⟨hx, hy⟩
  · exact ⟨rfl, hw⟩
  · have hplain {cs : List Char} (hc : cs.head? ≠ some '?') : greed cs = (true, cs) := by
      unfold greed
      split
      · exact absurd rfl hc
      · rfl
    rw [hplain hx, hplain hy]
    exact ⟨rfl, h⟩

theorem possessive_forked {e e' : Expression} (he : e.Wider e') (h : Forked t t' xs ys) :
    (possessive e xs).1.Wider (possessive e' ys).1 ∧ (possessive e xs).2 <:+ xs ∧
      Forked t t' (possessive e xs).2 (possessive e' ys).2 := by
  rcases h.head_cases (c := '+') (by decide) (by decide) with ⟨zs, ws, rfl, rfl, hw⟩ | ⟨hx, hy⟩
  · exact ⟨.atomic he, List.suffix_cons .., hw⟩
  · have hplain (e : Expression) {cs : List Char} (hc : cs.head? ≠ some '+') :
        possessive e cs = (e, cs) := by
      unfold possessive
      split
      · exact absurd rfl hc
      · rfl
    rw [hplain e hx, hplain e' hy]
    exact ⟨he, List.suffix_rfl, h⟩

theorem quantify_eq {m : Modes} (hm : m.spaced = false) (e : Expression) {cs : List Char}
    (h : CommentFree cs) :
    quantify m e cs =
      match quantity? m cs with
      | none => .ok (e, cs)
      | some (q, rest) =>
          if e.repeatable then
            .ok (possessive (.loop q.least q.most ((greed rest).1 != m.swapGreed) e) (greed rest).2)
          else .error .nothingToRepeat := by
  have hquantity := quantity?_agree hm h h (Forked.refl cs)
  have hend (piece : Expression) (rest : List Char) :
      (match rest with
        | '+' :: rest => (pure (.atomic piece, rest) : Except Defect (Expression × List Char))
        | rest => pure (piece, rest)) = .ok (possessive piece rest) := by
    unfold possessive
    split <;> rfl
  rw [quantify, Modes.skip_of_commentFree hm h]
  simp only [bind, Except.bind]
  rcases hquantity with ⟨hn, -⟩ | ⟨q, rest, -, hq, -, hs, -⟩
  · rw [hn]
    rfl
  · rw [hq]
    dsimp only
    split
    · rw [Modes.skip_of_commentFree hm (h.of_suffix hs)]
      exact hend _ (greed rest).2
    · rfl

theorem quantify_forked {m : Modes} (hm : m.spaced = false) (hx : CommentFree xs)
    (hy : CommentFree ys) (h : Forked t t' xs ys) {e e' f : Expression} (he : e.Wider e')
    {rest : List Char} (hq : quantify m e xs = .ok (f, rest)) :
    rest <:+ xs ∧ ∃ f' rest', quantify m e' ys = .ok (f', rest') ∧ f.Wider f' ∧
      Forked t t' rest rest' := by
  rw [quantify_eq hm e hx] at hq
  rw [quantify_eq hm e' hy, he.repeatable]
  rcases quantity?_agree hm hx hy h with ⟨hn, hn'⟩ | ⟨q, zs, ws, hz, hw, hs, hf⟩
  · rw [hn] at hq
    rw [hn']
    cases hq
    exact ⟨List.suffix_rfl, e', ys, rfl, he, h⟩
  · rw [hz] at hq
    rw [hw]
    dsimp only at hq ⊢
    split at hq
    · rename_i hr
      rw [if_pos hr]
      obtain ⟨hgreedy, hrest⟩ := greed_forked hf
      rw [hgreedy]
      have hloop := Expression.Wider.loop q.least q.most ((greed zs).1 != m.swapGreed) he
      obtain ⟨hwider, hsuffix, hfork⟩ := possessive_forked hloop hrest
      rw [Except.ok.injEq] at hq
      rw [hq] at hwider hsuffix hfork
      exact ⟨(hsuffix.trans (greed_suffix zs)).trans hs, _, _, rfl, hwider, hfork⟩
    · cases hq

end Quantities

section Layout

def afterLine (cs : List Char) : List Char :=
  (cs.dropWhile (· != '\n')).drop 1

theorem afterLine_suffix (cs : List Char) : afterLine cs <:+ cs :=
  (List.drop_suffix ..).trans (List.dropWhile_suffix _)

theorem skipLayout_cons (spaced : Bool) (fuel : Nat) {c : Char} {cs : List Char}
    (h : CommentFree (c :: cs)) :
    skipLayout spaced (fuel + 1) (c :: cs) =
      if spaced && c == '#' then skipLayout spaced fuel (afterLine cs)
      else if spaced && isLayout c then skipLayout spaced fuel cs
      else .ok (c :: cs) := by
  rw [skipLayout.eq_def]
  split
  · rename_i he
    cases he
  · rename_i he
    cases he
    exact absurd (List.infix_append [] ['(', '?', '#'] _) h
  · rename_i hfuel hcs
    cases hfuel
    cases hcs
    rfl
  · rename_i he
    cases he

theorem skipLayout_suffix {spaced : Bool} {fuel : Nat} {cs rest : List Char} (hc : CommentFree cs)
    (h : skipLayout spaced fuel cs = .ok rest) : rest <:+ cs := by
  induction fuel generalizing cs with
  | zero =>
      cases h
      exact List.suffix_rfl
  | succ fuel ih =>
      cases cs with
      | nil =>
          cases h
          exact List.suffix_rfl
      | cons c cs =>
          have hcs := List.suffix_cons c cs
          have hline := (afterLine_suffix cs).trans hcs
          rw [skipLayout_cons spaced fuel hc] at h
          split at h
          · exact (ih (hc.of_suffix hline) h).trans hline
          · split at h
            · exact (ih (hc.of_suffix hcs) h).trans hcs
            · cases h
              exact List.suffix_rfl

theorem afterLine_forked (h : Forked t t' xs ys) (hl : t.length ≤ (afterLine xs).length) :
    Forked t t' (afterLine xs) (afterLine ys) := by
  induction h with
  | here hf =>
      cases hf with
      | nil => exact .here .nil
      | @space s s' hs =>
          have hlost : (afterLine (' ' :: s)).length ≤ s.length := (afterLine_suffix s).length_le
          exact absurd (Nat.le_trans hl hlost) (Nat.not_succ_le_self _)
  | @cons c xs ys h ih =>
      have hline (cs : List Char) :
          afterLine (c :: cs) = if c = '\n' then cs else afterLine cs := by
        unfold afterLine
        by_cases hc : c = '\n' <;> simp [hc]
      rw [hline] at hl ⊢
      rw [hline]
      split
      · exact h
      · rename_i hc
        exact ih (by rwa [if_neg hc] at hl)

theorem skipLayout_forked {spaced : Bool} {fuel fuel' : Nat} (hfuel : xs.length ≤ fuel)
    (hfuel' : ys.length ≤ fuel') (hx : CommentFree xs) (hy : CommentFree ys)
    (h : Forked t t' xs ys) {rest : List Char} (hskip : skipLayout spaced fuel xs = .ok rest)
    (hl : t.length ≤ rest.length) :
    ∃ rest', skipLayout spaced fuel' ys = .ok rest' ∧ Forked t t' rest rest' := by
  induction fuel generalizing fuel' xs ys with
  | zero =>
      obtain rfl := List.length_eq_zero_iff.1 (Nat.le_zero.1 hfuel)
      cases hskip
      obtain rfl := h.nil
      exact ⟨[], by cases fuel' <;> rfl, h⟩
  | succ fuel ih =>
      cases xs with
      | nil =>
          cases hskip
          obtain rfl := h.nil
          exact ⟨[], by cases fuel' <;> rfl, h⟩
      | cons c xs =>
          rw [List.length_cons, Nat.add_le_add_iff_right] at hfuel
          rw [skipLayout_cons spaced fuel hx] at hskip
          have hxs := hx.of_suffix (List.suffix_cons c xs)
          rcases h.cons_cases with ⟨zs, rfl, hz⟩ | ⟨rfl, rfl, s', rfl⟩
          · obtain ⟨fuel', rfl⟩ := Nat.exists_eq_add_of_le' (Nat.zero_lt_of_lt hfuel')
            rw [List.length_cons, Nat.add_le_add_iff_right] at hfuel'
            rw [skipLayout_cons spaced fuel' hy]
            have hzs := hy.of_suffix (List.suffix_cons c zs)
            split at hskip
            · rename_i hline
              rw [if_pos hline]
              have hs := afterLine_suffix xs
              have hs' := afterLine_suffix zs
              have hrest := skipLayout_suffix (hxs.of_suffix hs) hskip
              exact ih (Nat.le_trans hs.length_le hfuel) (Nat.le_trans hs'.length_le hfuel')
                (hxs.of_suffix hs) (hzs.of_suffix hs')
                (afterLine_forked hz (Nat.le_trans hl hrest.length_le)) hskip
            · rename_i hline
              rw [if_neg hline]
              split at hskip
              · rename_i hlayout
                rw [if_pos hlayout]
                exact ih hfuel hfuel' hxs hzs hz hskip
              · rename_i hlayout
                rw [if_neg hlayout]
                cases hskip
                exact ⟨c :: zs, rfl, h⟩
          · obtain ⟨fuel', rfl⟩ := Nat.exists_eq_add_of_le' (Nat.zero_lt_of_lt hfuel')
            cases spaced with
            | true =>
                have hrest := skipLayout_suffix hxs (show skipLayout true fuel xs = _ from hskip)
                exact absurd (Nat.le_trans hl hrest.length_le) (Nat.not_succ_le_self _)
            | false =>
                cases hskip
                exact ⟨_, skipLayout_cons false fuel' hy, h⟩

theorem Modes.skip_suffix {m : Modes} {cs rest : List Char} (hc : CommentFree cs)
    (h : m.skip cs = .ok rest) : rest <:+ cs :=
  skipLayout_suffix hc h

theorem Modes.skip_forked {m : Modes} (hx : CommentFree xs) (hy : CommentFree ys)
    (h : Forked t t' xs ys) {rest : List Char} (hskip : m.skip xs = .ok rest)
    (hl : t.length ≤ rest.length) : ∃ rest', m.skip ys = .ok rest' ∧ Forked t t' rest rest' :=
  skipLayout_forked (Nat.le_refl _) (Nat.le_refl _) hx hy h hskip hl

end Layout

section Options

def optionModes? (off : Bool) (m : Modes) : Char → Option (Bool × Modes)
  | 'i' => some (off, { m with caseless := !off })
  | 'm' => some (off, { m with multiline := !off })
  | 's' => some (off, { m with dotNewline := !off })
  | 'U' => some (off, { m with swapGreed := !off })
  | 'x' => some (off, { m with spaced := !off })
  | 'u' => if off then none else some (off, m)
  | '-' => if off then none else some (true, m)
  | _ => none

theorem options_eq {m : Modes} {cs rest : List Char} {c : Char} (h : m.skip cs = .ok (c :: rest))
    (start fuel : Nat) (off : Bool) :
    options start (fuel + 1) off m cs =
      if c = ')' then
        if rest.length + 1 = start ∨ (off ∧ rest.length + 2 = start) then .error .unknownOption
        else .ok (m, false, rest)
      else if c = ':' then
        if off ∧ rest.length + 2 = start then .error .unknownOption else .ok (m, true, rest)
      else
        match optionModes? off m c with
        | some (off, m) => options start fuel off m rest
        | none => .error .unknownOption := by
  rw [options, h]
  simp only [bind, Except.bind]
  split
  case h_1 he => cases he
  case h_7 he => cases he; cases off <;> rfl
  case h_8 he => cases he; cases off <;> rfl
  case h_11 hi hm hs hU hx hu hhyphen hclose hcolon hnil he =>
    have hnone : optionModes? off m c = none := by
      unfold optionModes?
      split <;> simp_all
    rw [hnone, if_neg fun hc => ?_, if_neg fun hc => ?_]
    all_goals simp_all
  all_goals rename_i he; cases he; rfl

theorem exists_skip_of_options {start fuel : Nat} {off colon : Bool} {m m' : Modes}
    {cs rest : List Char} (hc : CommentFree cs)
    (h : options start fuel off m cs = .ok (m', colon, rest)) :
    ∃ c ds, m.skip cs = .ok (c :: ds) ∧ ds <:+ cs ∧ rest <:+ ds := by
  induction fuel generalizing off m cs with
  | zero => cases h
  | succ fuel ih =>
      have hskip := h
      rw [options] at hskip
      obtain ⟨zs, hskip, hread⟩ := bind_eq_ok_iff.1 hskip
      cases zs with
      | nil => cases hread
      | cons c ds =>
          have hds := (List.suffix_cons c ds).trans (Modes.skip_suffix hc hskip)
          refine ⟨c, ds, hskip, hds, ?_⟩
          rw [options_eq hskip] at h
          split at h
          · split at h
            · cases h
            · cases h
              exact List.suffix_rfl
          · split at h
            · split at h
              · cases h
              · cases h
                exact List.suffix_rfl
            · split at h
              · obtain ⟨d, es, -, hes, hrest⟩ := ih (hc.of_suffix hds) h
                exact hrest.trans hes
              · cases h

theorem options_forked {start start' fuel fuel' : Nat} {off colon : Bool} {m m' : Modes}
    (hfuel : fuel ≤ fuel') (hstart : start + ys.length = start' + xs.length) (hx : CommentFree xs)
    (hy : CommentFree ys) (h : Forked t t' xs ys) {rest : List Char}
    (hread : options start fuel off m xs = .ok (m', colon, rest)) (hl : t.length ≤ rest.length) :
    ∃ rest', options start' fuel' off m ys = .ok (m', colon, rest') ∧
      Forked t t' rest rest' := by
  induction fuel generalizing fuel' off m xs ys with
  | zero => cases hread
  | succ fuel ih =>
      obtain ⟨fuel', rfl⟩ := Nat.exists_eq_add_of_le' (Nat.zero_lt_of_lt hfuel)
      obtain ⟨c, ds, hskip, hds, hrest⟩ := exists_skip_of_options hx hread
      have hlong := Nat.le_trans hl hrest.length_le
      obtain ⟨zs, hskip', hf⟩ := Modes.skip_forked hx hy h hskip (Nat.le_succ_of_le hlong)
      obtain ⟨es, rfl, he⟩ := hf.tail hlong
      have hes := h.suffix he hds
      have hlength := h.length_add
      have hlength' := he.length_add
      have hone : es.length + 1 = start' ↔ ds.length + 1 = start := by omega
      have htwo : es.length + 2 = start' ↔ ds.length + 2 = start := by omega
      rw [options_eq hskip] at hread
      rw [options_eq hskip']
      simp only [hone, htwo]
      split at hread
      · rename_i hclose
        rw [if_pos hclose]
        split at hread
        · cases hread
        · rename_i hn
          cases hread
          exact ⟨es, if_neg hn, he⟩
      · rename_i hclose
        rw [if_neg hclose]
        split at hread
        · rename_i hcolon
          rw [if_pos hcolon]
          split at hread
          · cases hread
          · rename_i hn
            cases hread
            exact ⟨es, if_neg hn, he⟩
        · rename_i hcolon
          rw [if_neg hcolon]
          cases hmodes : optionModes? off m c with
          | none =>
              rw [hmodes] at hread
              cases hread
          | some modes =>
              rw [hmodes] at hread
              exact ih (Nat.le_of_succ_le_succ hfuel) (by omega) (hx.of_suffix hds)
                (hy.of_suffix hes) he hread

end Options

end AnswerGrading.Regex
