import AnswerGrading.Regex.Reader

/-!
Two texts that are the same up to a place where one has a space and the other opens a group. Whatever
a reader takes from the one before that place, it takes from the other as well.
-/

namespace AnswerGrading.Regex

theorem map_eq_ok_iff {ε α β : Type} {x : Except ε α} {f : α → β} {b : β} :
    x.map f = .ok b ↔ ∃ a, x = .ok a ∧ f a = b := by
  cases x <;> simp [Except.map]

theorem bind_eq_ok_iff {ε α β : Type} {x : Except ε α} {f : α → Except ε β} {b : β} :
    x >>= f = .ok b ↔ ∃ a, x = .ok a ∧ f a = .ok b := by
  cases x <;> simp [bind, Except.bind]

/-- Either nothing is left, or a space stands where a group without a capture begins. -/
inductive Fork : List Char → List Char → Prop
  | nil : Fork [] []
  | space {s s' : List Char} : s.length ≤ s'.length → Fork (' ' :: s) ('(' :: '?' :: ':' :: s')

inductive Forked (t t' : List Char) : List Char → List Char → Prop
  | here : Fork t t' → Forked t t' t t'
  | cons (c : Char) {xs ys : List Char} : Forked t t' xs ys → Forked t t' (c :: xs) (c :: ys)

/-- What is left of the first text is its end, and as long as the fork is in it, the second text
gives the same with what is left of it. -/
def Keeps {α : Type} (t t' xs : List Char) (x x' : Except Defect (α × List Char)) : Prop :=
  ∀ a rest, x = .ok (a, rest) → rest <:+ xs ∧
    (t.length ≤ rest.length → ∃ rest', x' = .ok (a, rest') ∧ Forked t t' rest rest')

def CommentFree (cs : List Char) : Prop :=
  ¬['(', '?', '#'] <:+: cs

theorem CommentFree.of_suffix {cs rest : List Char} (h : CommentFree cs) (hs : rest <:+ cs) :
    CommentFree rest :=
  fun hi => h (hi.trans hs.isInfix)

namespace Forked

variable {t t' xs ys : List Char}

theorem refl (xs : List Char) : Forked [] [] xs xs := by
  induction xs with
  | nil => exact .here .nil
  | cons c xs ih => exact .cons c ih

theorem nil {zs : List Char} (h : Forked t t' [] zs) : zs = [] := by
  cases h with
  | here hf =>
      cases hf with
      | nil => rfl

theorem exists_append (h : Forked t t' xs ys) : ∃ p, xs = p ++ t ∧ ys = p ++ t' := by
  induction h with
  | here => exact ⟨[], rfl, rfl⟩
  | cons c _ ih =>
      obtain ⟨p, rfl, rfl⟩ := ih
      exact ⟨c :: p, rfl, rfl⟩

theorem suffix (h : Forked t t' xs ys) {rest rest' : List Char} (h' : Forked t t' rest rest')
    (hs : rest <:+ xs) : rest' <:+ ys := by
  obtain ⟨p, rfl, rfl⟩ := h.exists_append
  obtain ⟨q, rfl, rfl⟩ := h'.exists_append
  obtain ⟨w, hw⟩ := hs
  rw [← List.append_assoc, List.append_cancel_right_eq] at hw
  exact ⟨w, by rw [← hw, List.append_assoc]⟩

theorem length_le (h : Forked t t' xs ys) : xs.length ≤ ys.length := by
  induction h with
  | here hf =>
      cases hf with
      | nil => exact Nat.le_refl _
      | space hs => simp; omega
  | cons c _ ih => simpa using ih

theorem length_add (h : Forked t t' xs ys) : xs.length + t'.length = ys.length + t.length := by
  induction h with
  | here => exact Nat.add_comm ..
  | cons c _ ih => simp only [List.length_cons]; omega

/-- A text that goes on from inside the first way has lost the fork. -/
theorem cons_cases {c : Char} {zs : List Char} (h : Forked t t' (c :: xs) zs) :
    (∃ ys, zs = c :: ys ∧ Forked t t' xs ys) ∨
    (c = ' ' ∧ t = ' ' :: xs ∧ ∃ s', zs = '(' :: '?' :: ':' :: s') := by
  cases h with
  | here hf =>
      cases hf with
      | @space s s' hs => exact .inr ⟨rfl, rfl, s', rfl⟩
  | cons c h => exact .inl ⟨_, rfl, h⟩

theorem tail {c : Char} {zs : List Char} (h : Forked t t' (c :: xs) zs)
    (hl : t.length ≤ xs.length) : ∃ ys, zs = c :: ys ∧ Forked t t' xs ys := by
  rcases h.cons_cases with h | ⟨-, rfl, -⟩
  · exact h
  · exact absurd hl (Nat.not_succ_le_self _)

theorem of_ne_space {c : Char} {zs : List Char} (h : Forked t t' (c :: xs) zs) (hc : c ≠ ' ') :
    ∃ ys, zs = c :: ys ∧ Forked t t' xs ys := by
  rcases h.cons_cases with h | ⟨hs, -⟩
  · exact h
  · exact absurd hs hc

theorem of_ne_open {c : Char} {zs : List Char} (h : Forked t t' zs (c :: ys)) (hc : c ≠ '(') :
    ∃ xs, zs = c :: xs ∧ Forked t t' xs ys := by
  cases h with
  | here hf =>
      cases hf with
      | space hs => exact absurd rfl hc
  | cons c h => exact ⟨_, rfl, h⟩

theorem head?_eq_iff {c : Char} (h : Forked t t' xs ys) (hspace : c ≠ ' ') (hopen : c ≠ '(') :
    ys.head? = some c ↔ xs.head? = some c := by
  rw [List.head?_eq_some_iff, List.head?_eq_some_iff]
  constructor
  · rintro ⟨zs, rfl⟩
    obtain ⟨ws, rfl, -⟩ := h.of_ne_open hopen
    exact ⟨ws, rfl⟩
  · rintro ⟨zs, rfl⟩
    obtain ⟨ws, rfl, -⟩ := h.of_ne_space hspace
    exact ⟨ws, rfl⟩

theorem takeWhile {f : Char → Bool} (hspace : f ' ' = false) (hopen : f '(' = false)
    (h : Forked t t' xs ys) :
    ys.takeWhile f = xs.takeWhile f ∧ Forked t t' (xs.dropWhile f) (ys.dropWhile f) := by
  induction h with
  | here hf =>
      cases hf with
      | nil => exact ⟨rfl, .here .nil⟩
      | space hs =>
          refine ⟨by simp [hspace, hopen], ?_⟩
          simpa [hspace, hopen] using Forked.here (Fork.space hs)
  | cons c h ih =>
      cases hc : f c with
      | true => simpa [hc] using ih
      | false => exact ⟨by simp [hc], by simpa [hc] using h.cons c⟩

theorem take (n : Nat) (h : Forked t t' xs ys) :
    (ys.take n = xs.take n ∧ Forked t t' (xs.drop n) (ys.drop n)) ∨
      (' ' ∈ xs.take n ∧ '(' ∈ ys.take n) := by
  induction h generalizing n with
  | here hf =>
      cases hf with
      | nil => exact .inl ⟨rfl, by simpa using Forked.here .nil⟩
      | space hs =>
          cases n with
          | zero => exact .inl ⟨rfl, .here (.space hs)⟩
          | succ n => exact .inr ⟨by simp, by simp⟩
  | cons c h ih =>
      cases n with
      | zero => exact .inl ⟨rfl, h.cons c⟩
      | succ n =>
          rcases ih n with ⟨ht, hd⟩ | ⟨hx, hy⟩
          · exact .inl ⟨by simp [ht], hd⟩
          · exact .inr ⟨by simp [hx], by simp [hy]⟩

end Forked

section Keeps

variable {t t' xs ys : List Char}

theorem keeps_of_eq {α : Type} {x x' : Except Defect (α × List Char)}
    (h : ∀ a rest, x = .ok (a, rest) → rest <:+ xs ∧ ∃ rest', x' = .ok (a, rest') ∧
      Forked t t' rest rest') : Keeps t t' xs x x' :=
  fun a rest hx => ⟨(h a rest hx).1, fun _ => (h a rest hx).2⟩

theorem keeps_error {α : Type} {d : Defect} {x' : Except Defect (α × List Char)} :
    Keeps t t' xs (.error d) x' :=
  fun _ _ hx => nomatch hx

theorem keeps_ok {α : Type} (a : α) (h : Forked t t' xs ys) :
    Keeps t t' xs (.ok (a, xs)) (.ok (a, ys)) := by
  intro b rest hx
  cases hx
  exact ⟨List.suffix_rfl, fun _ => ⟨ys, rfl, h⟩⟩

theorem Keeps.of_suffix {α : Type} {x x' : Except Defect (α × List Char)}
    (h : Keeps t t' xs x x') {cs : List Char} (hs : xs <:+ cs) : Keeps t t' cs x x' :=
  fun a rest hx => ⟨(h a rest hx).1.trans hs, (h a rest hx).2⟩

theorem Keeps.cons {α : Type} {x x' : Except Defect (α × List Char)} (h : Keeps t t' xs x x')
    (c : Char) : Keeps t t' (c :: xs) x x' :=
  h.of_suffix (List.suffix_cons c xs)

theorem Keeps.map {α β : Type} {x x' : Except Defect (α × List Char)} (h : Keeps t t' xs x x')
    (f : α → β) :
    Keeps t t' xs (x.map fun (a, rest) => (f a, rest)) (x'.map fun (a, rest) => (f a, rest)) := by
  intro b rest hx
  obtain ⟨⟨a, rest⟩, ha, he⟩ := map_eq_ok_iff.1 hx
  cases he
  obtain ⟨hs, hk⟩ := h a rest ha
  refine ⟨hs, fun hl => ?_⟩
  obtain ⟨rest', hy, hf⟩ := hk hl
  exact ⟨rest', by rw [hy]; rfl, hf⟩

theorem Keeps.ite {α : Type} {p : Prop} [Decidable p] {a b a' b' : Except Defect (α × List Char)}
    (ha : p → Keeps t t' xs a a') (hb : ¬p → Keeps t t' xs b b') :
    Keeps t t' xs (if p then a else b) (if p then a' else b') := by
  split
  · exact ha ‹p›
  · exact hb ‹¬p›

theorem Keeps.bind {α β : Type} {x x' : Except Defect (α × List Char)}
    {f f' : α × List Char → Except Defect (β × List Char)} (h : Keeps t t' xs x x')
    (hf : ∀ a {t t' ys zs}, Forked t t' ys zs → Keeps t t' ys (f (a, ys)) (f' (a, zs))) :
    Keeps t t' xs (x >>= f) (x' >>= f') := by
  intro b rest hx
  obtain ⟨⟨a, ys⟩, ha, hb⟩ := bind_eq_ok_iff.1 hx
  obtain ⟨hys, hk⟩ := h a ys ha
  have hrest := (hf a (.refl ys) b rest hb).1
  refine ⟨hrest.trans hys, fun hl => ?_⟩
  obtain ⟨zs, hz, hfork⟩ := hk (Nat.le_trans hl hrest.length_le)
  obtain ⟨rest', hy, hfork'⟩ := (hf a hfork b rest hb).2 hl
  exact ⟨rest', by rw [hz]; exact hy, hfork'⟩

theorem Keeps.of_cons {α : Type} (f f' : List Char → Except Defect (α × List Char)) {c : Char}
    {cs zs : List Char}
    (hf : ∀ {t t' zs}, Forked t t' cs zs → Keeps t t' cs (f (c :: cs)) (f' (c :: zs)))
    (h : Forked t t' (c :: cs) zs) : Keeps t t' (c :: cs) (f (c :: cs)) (f' zs) := by
  rcases h.cons_cases with ⟨zs, rfl, hz⟩ | ⟨rfl, rfl, -⟩
  · exact (hf hz).cons c
  · intro a rest hx
    have hs := (hf (.refl cs) a rest hx).1
    have hlost : ¬(' ' :: cs).length ≤ rest.length := Nat.not_le.2 (Nat.lt_succ_of_le hs.length_le)
    exact ⟨hs.trans (List.suffix_cons ..), fun hl => absurd hl hlost⟩

end Keeps

section Scanners

variable {t t' xs ys : List Char}

theorem decimal?_forked (h : Forked t t' xs ys) :
    (decimal? xs = none ∧ decimal? ys = none) ∨
    ∃ n rest rest', decimal? xs = some (n, rest) ∧ decimal? ys = some (n, rest') ∧
      rest <:+ xs.tail ∧ Forked t t' rest rest' := by
  obtain ⟨htake, hdrop⟩ := h.takeWhile (f := Char.isDigit) (by decide) (by decide)
  unfold decimal?
  simp only [htake]
  split
  · exact .inl ⟨rfl, rfl⟩
  · rename_i hdigits
    refine .inr ⟨_, _, _, rfl, rfl, ?_, hdrop⟩
    cases xs with
    | nil => exact List.nil_suffix
    | cons c xs =>
        cases hc : c.isDigit with
        | true => simpa [hc] using List.dropWhile_suffix _
        | false => exact absurd (.inl (by simp [hc])) hdigits

theorem nameText_eq_some_iff {close : Char} {cs id rest : List Char} :
    nameText cs close = some (id, rest) ↔
      cs.takeWhile isNameChar = id ∧ cs.dropWhile isNameChar = close :: rest := by
  unfold nameText
  split
  · rename_i c cs' hd
    rw [hd]
    by_cases hc : c = close
    · simp [hc]
    · simp [hc]
  · rename_i hd
    simp [hd]

theorem nameText_forked {close : Char} (hc : close ≠ ' ') (h : Forked t t' xs ys)
    {id rest : List Char} (hx : nameText xs close = some (id, rest)) :
    rest <:+ xs ∧ ∃ rest', nameText ys close = some (id, rest') ∧ Forked t t' rest rest' := by
  obtain ⟨htake, hdrop⟩ := h.takeWhile (f := isNameChar) (by decide) (by decide)
  rw [nameText_eq_some_iff] at hx
  obtain ⟨hid, hrest⟩ := hx
  rw [hrest] at hdrop
  obtain ⟨rest', hy, hf⟩ := hdrop.of_ne_space hc
  refine ⟨?_, rest', nameText_eq_some_iff.2 ⟨htake.trans hid, hy⟩, hf⟩
  exact (List.suffix_cons close rest).trans (hrest ▸ List.dropWhile_suffix _)

theorem groupName?_forked {close : Char} (hc : close ≠ ' ') (h : Forked t t' xs ys)
    {id rest : List Char} (hx : groupName? close xs = some (id, rest)) :
    rest <:+ xs ∧ ∃ rest', groupName? close ys = some (id, rest') ∧ Forked t t' rest rest' := by
  unfold groupName? at hx
  split at hx
  · cases hx
  · rename_i hn
    obtain ⟨hs, rest', hy, hf⟩ := nameText_forked hc h hx
    refine ⟨hs, rest', ?_, hf⟩
    have hid : id ≠ [] := fun he => hn rest (he ▸ hx)
    rw [groupName?, hy]
    split
    · rename_i he
      cases he
      contradiction
    · rfl

theorem referenceName?_forked {close : Char} (hc : close ≠ ' ') (h : Forked t t' xs ys)
    {id rest : List Char} (hx : referenceName? close xs = some (id, rest)) :
    rest <:+ xs ∧ ∃ rest', referenceName? close ys = some (id, rest') ∧
      Forked t t' rest rest' := by
  unfold referenceName? at hx
  split at hx
  · obtain ⟨⟨id', rest'⟩, hname, he⟩ := Option.map_eq_some_iff.1 hx
    cases he
    obtain ⟨zs, rfl, hz⟩ := h.of_ne_space (by decide)
    obtain ⟨hs, rest'', hy, hf⟩ := nameText_forked hc hz hname
    exact ⟨hs.trans (List.suffix_cons ..), rest'', by simp [referenceName?, hy], hf⟩
  · rename_i hn
    obtain ⟨hs, rest', hy, hf⟩ := groupName?_forked hc h hx
    refine ⟨hs, rest', ?_, hf⟩
    unfold referenceName?
    split
    · obtain ⟨zs, rfl, -⟩ := h.of_ne_open (by decide)
      exact absurd rfl (hn zs)
    · exact hy

theorem quotedName?_forked (h : Forked t t' xs ys)
    {id rest : List Char} (hx : quotedName? xs = some (id, rest)) :
    rest <:+ xs ∧ ∃ rest', quotedName? ys = some (id, rest') ∧ Forked t t' rest rest' := by
  unfold quotedName? at hx
  split at hx
  · rename_i cs
    obtain ⟨zs, rfl, hz⟩ := h.of_ne_space (by decide)
    obtain ⟨hs, rest', hy, hf⟩ := referenceName?_forked (by decide) hz hx
    exact ⟨hs.trans (List.suffix_cons ..), rest', hy, hf⟩
  · rename_i c cs hn
    split at hx
    · rename_i he
      subst he
      obtain ⟨zs, rfl, hz⟩ := h.of_ne_space (by decide)
      obtain ⟨hs, rest', hy, hf⟩ := referenceName?_forked (by decide) hz hx
      exact ⟨hs.trans (List.suffix_cons ..), rest', hy, hf⟩
    · cases hx
  · cases hx

theorem hexEscape_forked {count : Nat} (h : Forked t t' xs ys) {c : Char} {rest : List Char}
    (hx : hexEscape count xs = .ok (c, rest)) :
    rest <:+ xs ∧ ∃ rest', hexEscape count ys = .ok (c, rest') ∧ Forked t t' rest rest' := by
  have hdigits := h.take count
  unfold hexEscape at hx ⊢
  split at hx
  · rename_i hx'
    obtain ⟨d, hd, he⟩ := map_eq_ok_iff.1 hx
    cases he
    rcases hdigits with ⟨htake, hdrop⟩ | ⟨hspace, -⟩
    · exact ⟨List.drop_suffix .., _, by rw [htake, if_pos hx', hd]; rfl, hdrop⟩
    · exact absurd (List.all_eq_true.1 hx'.2 ' ' hspace) (by decide)
  · rename_i hn
    split at hx
    · rename_i cs
      obtain ⟨zs, rfl, hz⟩ := h.of_ne_space (by decide)
      obtain ⟨htake, hdrop⟩ := hz.takeWhile (f := isHexDigit) (by decide) (by decide)
      have hn' : ¬((List.take count ('\x7b' :: zs)).length = count ∧
          (List.take count ('\x7b' :: zs)).all isHexDigit = true) := by
        rintro ⟨hl, hall⟩
        rcases hdigits with ⟨htake, -⟩ | ⟨-, hopen⟩
        · exact hn (htake ▸ ⟨hl, hall⟩)
        · exact absurd (List.all_eq_true.1 hall '(' hopen) (by decide)
      rw [if_neg hn']
      simp only [htake]
      split at hx
      · rename_i rest' hrest
        rw [hrest] at hdrop
        obtain ⟨ws, hw, hf⟩ := hdrop.of_ne_space (by decide)
        dsimp only at hx
        split at hx
        · cases hx
        · rename_i hsize
          obtain ⟨d, hd, he⟩ := map_eq_ok_iff.1 hx
          cases he
          have hsuffix := List.dropWhile_suffix (l := cs) isHexDigit
          rw [hrest] at hsuffix
          refine ⟨(List.suffix_cons ..).trans (hsuffix.trans (List.suffix_cons ..)), ws, ?_, hf⟩
          rw [hw]
          simp only [if_neg hsize, hd]
          rfl
      · cases hx
    · cases hx

theorem splitAtFirst_cons (p : Char → Bool) (c : Char) (cs : List Char) :
    splitAtFirst p (c :: cs) =
      if p c then some ([], cs) else (splitAtFirst p cs).map fun (l, r) => (c :: l, r) := by
  unfold splitAtFirst
  cases hc : p c with
  | true => simp [hc]
  | false =>
      simp only [List.dropWhile_cons, List.takeWhile_cons, hc]
      cases cs.dropWhile fun c => !p c <;> rfl

theorem splitAtFirst_suffix {p : Char → Bool} {cs left right : List Char}
    (h : splitAtFirst p cs = some (left, right)) : ∃ c, c :: right <:+ cs := by
  unfold splitAtFirst at h
  split at h
  · rename_i c rest hd
    cases h
    exact ⟨c, hd ▸ List.dropWhile_suffix _⟩
  · cases h

theorem splitAtFirst_forked {p : Char → Bool} (h : Forked t t' xs ys) {left right : List Char}
    (hx : splitAtFirst p xs = some (left, right)) (hl : t.length ≤ right.length) :
    ∃ right', splitAtFirst p ys = some (left, right') ∧ Forked t t' right right' := by
  induction h generalizing left with
  | here =>
      obtain ⟨c, hc⟩ := splitAtFirst_suffix hx
      exact absurd hc.length_le (by simp; omega)
  | @cons c xs ys h ih =>
      rw [splitAtFirst_cons] at hx ⊢
      split at hx
      · rename_i hp
        cases hx
        exact ⟨ys, if_pos hp, h⟩
      · rename_i hp
        obtain ⟨⟨left', right'⟩, hx', he⟩ := Option.map_eq_some_iff.1 hx
        cases he
        obtain ⟨right'', hy, hf⟩ := ih hx'
        exact ⟨right'', by rw [if_neg hp, hy]; rfl, hf⟩

theorem propertyText_keeps (h : Forked t t' xs ys) :
    Keeps t t' xs (propertyText xs) (propertyText ys) := by
  intro text rest hx
  unfold propertyText at hx
  split at hx
  · rename_i cs
    obtain ⟨zs, rfl, hz⟩ := h.of_ne_space (by decide)
    split at hx
    · rename_i found hs
      cases hx
      obtain ⟨c, hc⟩ := splitAtFirst_suffix hs
      refine ⟨(List.suffix_cons ..).trans (hc.trans (List.suffix_cons ..)), fun hl => ?_⟩
      obtain ⟨rest', hy, hf⟩ := splitAtFirst_forked hz hs hl
      exact ⟨rest', by simp [propertyText, hy], hf⟩
    · cases hx
  · rename_i c cs hn
    cases hx
    refine ⟨List.suffix_cons .., fun hl => ?_⟩
    obtain ⟨zs, rfl, hz⟩ := h.tail hl
    refine ⟨zs, ?_, hz⟩
    unfold propertyText
    split
    · rename_i ds he
      cases he
      exact absurd rfl hn
    · rename_i he
      cases he
      rfl
    · rename_i he
      cases he
  · cases hx

theorem propertyEscape_keeps (caseless negated : Bool) (h : Forked t t' xs ys) :
    Keeps t t' xs (propertyEscape caseless negated xs) (propertyEscape caseless negated ys) := by
  intro s rest hx
  rw [propertyEscape] at hx
  obtain ⟨⟨text, rest'⟩, htext, hx⟩ := bind_eq_ok_iff.1 hx
  obtain ⟨hs, hkeep⟩ := propertyText_keeps h text rest' htext
  dsimp only at hx
  split at hx
  · rename_i unequal set hp
    cases hx
    refine ⟨hs, fun hl => ?_⟩
    obtain ⟨rest'', hy, hf⟩ := hkeep hl
    refine ⟨rest'', ?_, hf⟩
    rw [propertyEscape, hy]
    simp only [bind, Except.bind, hp]
  · cases hx

theorem escape_cons_keeps (inBracket caseless : Bool) (c : Char) (h : Forked t t' xs ys) :
    Keeps t t' xs (escape inBracket caseless (c :: xs))
      (escape inBracket caseless (c :: ys)) := by
  have hexactly (count : Nat) : Keeps t t' xs (hexEscape count xs) (hexEscape count ys) :=
    keeps_of_eq fun _ _ => hexEscape_forked h
  have hhead := h.head?_eq_iff (c := '\x7b') (by decide) (by decide)
  rw [escape, escape]
  simp only [hhead]
  refine .ite (fun _ => ?_) fun _ => .ite (fun _ => ?_) fun _ => ?_
  · rcases decimal?_forked (h.cons c) with ⟨hn, -⟩ | ⟨n, rest, rest', hx, hy, hs, hf⟩
    · rw [hn]
      exact keeps_error
    · rw [hx, hy]
      refine keeps_of_eq fun a rest he => ?_
      cases he
      exact ⟨hs, rest', rfl, hf⟩
  · cases hq : quotedName? xs with
    | none => exact keeps_error
    | some found =>
        obtain ⟨id, rest⟩ := found
        obtain ⟨hs, rest', hy, hf⟩ := quotedName?_forked h hq
        rw [hy]
        refine keeps_of_eq fun a rest he => ?_
        cases he
        exact ⟨hs, rest', rfl, hf⟩
  refine .ite (fun _ => ((hexactly 2).map _)) fun _ => ?_
  refine .ite (fun _ => ((hexactly 4).map _)) fun _ => ?_
  refine .ite (fun _ => ((hexactly 8).map _)) fun _ => ?_
  refine .ite (fun _ => ((propertyEscape_keeps caseless false h).map _)) fun _ => ?_
  refine .ite (fun _ => ((propertyEscape_keeps caseless true h).map _)) fun _ => ?_
  refine .ite (fun _ => keeps_error) fun _ => ?_
  split
  · exact (keeps_ok _ h)
  · exact (keeps_ok _ h)
  · cases literalEscape inBracket c with
    | error d => exact keeps_error
    | ok d => exact (keeps_ok _ h)

theorem escape_keeps (inBracket caseless : Bool) (h : Forked t t' xs ys) :
    Keeps t t' xs (escape inBracket caseless xs) (escape inBracket caseless ys) := by
  cases xs with
  | nil => exact keeps_error
  | cons c xs => exact .of_cons _ _ (escape_cons_keeps inBracket caseless c) h

theorem Keeps.item (item : BracketItem) {t t' xs : List Char}
    {x y : Except Defect (List BracketItem × List Char)} (h : Keeps t t' xs x y) :
    Keeps t t' xs
      (do
        let (items, rest) ← x
        return (item :: items, rest))
      (do
        let (items, rest) ← y
        return (item :: items, rest)) :=
  h.bind fun items => keeps_ok (item :: items)

theorem bracketItems_keeps (caseless : Bool) {fuel fuel' : Nat} (hfuel : fuel ≤ fuel') (nest : Nat)
    {t t' xs ys : List Char} (h : Forked t t' xs ys) :
    Keeps t t' xs (bracketItems caseless fuel nest xs) (bracketItems caseless fuel' nest ys) := by
  induction fuel generalizing fuel' nest t t' xs ys with
  | zero => exact keeps_error
  | succ fuel ih =>
      obtain ⟨fuel', rfl⟩ := Nat.exists_eq_add_of_le' (Nat.zero_lt_of_lt hfuel)
      have hrest (nest : Nat) {t t' xs ys : List Char} (h : Forked t t' xs ys) :
          Keeps t t' xs (bracketItems caseless fuel nest xs) (bracketItems caseless fuel' nest ys) :=
        ih (Nat.le_of_succ_le_succ hfuel) nest h
      cases xs with
      | nil => exact keeps_error
      | cons c xs =>
          refine .of_cons (bracketItems caseless (fuel + 1) nest)
            (bracketItems caseless (fuel' + 1) nest) (fun {t t' zs} hz => ?_) h
          by_cases hb : c = '\\'
          · subst hb
            refine (escape_keeps true caseless hz).bind fun e {t t' ys zs} hf => ?_
            cases e with
            | numbered d => exact (hrest nest hf).item _
            | exact d => exact (hrest nest hf).item _
            | set s => exact (hrest nest hf).item _
            | _ => exact keeps_error
          by_cases hclose : c = ']'
          · subst hclose
            exact .ite (fun _ => keeps_ok _ hz) fun _ => (hrest (nest - 1) hz).item _
          · simp only [bracketItems]
            exact (hrest _ hz).item _

def leadingBracket (hat : List BracketItem) : List Char → List BracketItem × List Char
  | ']' :: cs => (hat ++ [.bare ']'], cs)
  | cs => (hat, cs)

theorem bracketStart_of_head? {cs : List Char} (h : cs.head? ≠ some '^') :
    bracketStart cs = leadingBracket [] cs := by
  cases cs with
  | nil => rfl
  | cons c cs =>
      have hc : c ≠ '^' := fun he => h (by rw [he]; rfl)
      simp only [bracketStart]
      simp [hc]
      rfl

theorem leadingBracket_forked (hat : List BracketItem) (h : Forked t t' xs ys) :
    ∃ items rest rest', leadingBracket hat xs = (items, rest) ∧
      leadingBracket hat ys = (items, rest') ∧ rest <:+ xs ∧ Forked t t' rest rest' := by
  have hhead := h.head?_eq_iff (c := ']') (by decide) (by decide)
  by_cases hx : xs.head? = some ']'
  · obtain ⟨cs, rfl⟩ := List.head?_eq_some_iff.1 hx
    obtain ⟨zs, rfl, hz⟩ := h.of_ne_space (by decide)
    exact ⟨_, cs, zs, rfl, rfl, List.suffix_cons .., hz⟩
  · have hplain {cs : List Char} (hc : cs.head? ≠ some ']') : leadingBracket hat cs = (hat, cs) := by
      unfold leadingBracket
      split
      · exact absurd rfl hc
      · rfl
    exact ⟨hat, xs, ys, hplain hx, hplain fun hy => hx (hhead.1 hy), List.suffix_rfl, h⟩

theorem bracketStart_forked (h : Forked t t' xs ys) :
    ∃ items rest rest', bracketStart xs = (items, rest) ∧ bracketStart ys = (items, rest') ∧
      rest <:+ xs ∧ Forked t t' rest rest' := by
  have hhead := h.head?_eq_iff (c := '^') (by decide) (by decide)
  by_cases hx : xs.head? = some '^'
  · obtain ⟨cs, rfl⟩ := List.head?_eq_some_iff.1 hx
    obtain ⟨zs, rfl, hz⟩ := h.of_ne_space (by decide)
    obtain ⟨items, rest, rest', hcs, hzs, hs, hf⟩ := leadingBracket_forked [.bare '^'] hz
    exact ⟨items, rest, rest', hcs, hzs, hs.trans (List.suffix_cons ..), hf⟩
  · rw [bracketStart_of_head? hx, bracketStart_of_head? fun hy => hx (hhead.1 hy)]
    exact leadingBracket_forked [] h

theorem bracket_keeps (caseless : Bool) (h : Forked t t' xs ys) :
    Keeps t t' xs (bracket caseless xs) (bracket caseless ys) := by
  obtain ⟨items, rest, rest', hx, hy, hs, hf⟩ := bracketStart_forked h
  have hfuel : rest.length + 1 ≤ rest'.length + 1 := Nat.succ_le_succ hf.length_le
  rw [bracket, bracket, hx, hy]
  refine Keeps.of_suffix ((bracketItems_keeps caseless hfuel 1 hf).bind fun found {_ _ ys zs} hz => ?_) hs
  dsimp only
  cases bracketSet caseless (items ++ found) with
  | error d => exact keeps_error
  | ok value => exact keeps_ok _ hz

end Scanners

end AnswerGrading.Regex
