import AnswerGrading.Engine
import AnswerGrading.Proofs.DelimitedPatterns

namespace AnswerGrading.Fragment

/-- Group syntax with angle brackets: `(?<=`, `(?<!`, `(?<id>`, `(?P<id>`, `(?>` and `\k<id>`. -/
inductive GroupSyntax where
  | lookbehind (negated : Bool)
  | named (id : List Char)
  | longNamed (id : List Char)
  | atomic
  | reference (id : List Char)
  deriving DecidableEq, Repr

structure IsGroupName (id : List Char) : Prop where
  ne_nil : id ≠ []
  chars : ∀ c ∈ id, Regex.isNameChar c = true
  noDigit : ∀ c ∈ id.head?, Unicode.isNumeric c = false

namespace GroupSyntax

def lexemes : GroupSyntax → List Lexeme
  | .lookbehind negated =>
      [.single '(', .single '?', .single '<', .single (if negated then '!' else '=')]
  | .named id => [.single '(', .single '?', .single '<'] ++ id.map .single ++ [.single '>']
  | .longNamed id =>
      [.single '(', .single '?', .single 'P', .single '<'] ++ id.map .single ++ [.single '>']
  | .atomic => [.single '(', .single '?', .single '>']
  | .reference id => [.pair 'k', .single '<'] ++ id.map .single ++ [.single '>']

def text (s : GroupSyntax) : List Char :=
  s.lexemes.flatMap Lexeme.text

def Proper : GroupSyntax → Prop
  | .lookbehind _ => True
  | .named id => IsGroupName id
  | .longNamed id => IsGroupName id
  | .atomic => True
  | .reference id => IsGroupName id

/-- Lookbehind, and a named group whose name starts with a letter. -/
def spared : GroupSyntax → Bool
  | .lookbehind _ => true
  | .named id => id.head?.any Unicode.isAlphabetic
  | .longNamed _ => false
  | .atomic => false
  | .reference _ => false

/-- The syntax up to its `>`, with a `<` that is taken for a redirection in its group. -/
def spaced : GroupSyntax → List Char
  | .lookbehind _ => []
  | .named id => ['(', '?', '<'] ++ id
  | .longNamed id => ['(', '?', 'P'] ++ redirectGroup '<' false ++ id
  | .atomic => ['(', '?']
  | .reference id => ['\\', 'k'] ++ redirectGroup '<' false ++ id

end GroupSyntax

example : GroupSyntax.text (.longNamed ['n']) = "(?P<n>".toList := by decide

/-- What stands in a region at the end of some lexemes that began in another. -/
def Region.after : Region → List Lexeme → Region
  | r, [] => r
  | .name, l :: ls => Region.after (.inName l) ls
  | .plain, .single '(' :: .single '?' :: .single '<' :: ls => Region.after (.ofNext ls) ls
  | .plain, _ :: ls => Region.after .plain ls

/-- Lexemes that no lexeme in front of them takes into a part. -/
def Detached (ls : List Lexeme) : Prop :=
  ∀ c, ls.head? = some (.single c) → c = '('

theorem Detached.ne_cons {ls : List Lexeme} (h : Detached ls) {c : Char} (hc : c ≠ '(')
    (ms : List Lexeme) : ls ≠ .single c :: ms := by
  rintro rfl
  exact hc (h c rfl)

theorem Detached.append_ne_cons {ms : List Lexeme} (h : Detached ms) {ls : List Lexeme} {c : Char}
    (hc : c ≠ '(') (hl : ∀ ls', ls ≠ .single c :: ls') (ns : List Lexeme) :
    ls ++ ms ≠ .single c :: ns := by
  cases ls with
  | nil => exact h.ne_cons hc ns
  | cons l ls =>
      intro he
      cases he
      exact hl ls rfl

theorem Detached.ofNext_append {ms : List Lexeme} (h : Detached ms) (ls : List Lexeme) :
    Region.ofNext (ls ++ ms) = Region.ofNext ls := by
  cases ls with
  | cons l ls => cases l <;> rfl
  | nil =>
      rcases ms with _ | ⟨_ | c, ms⟩
      · rfl
      · rfl
      · obtain rfl := h c rfl
        rfl

theorem partsFrom_plain {l : Lexeme} (hleft : l ≠ .single '<') (hright : l ≠ .single '>')
    {ls : List Lexeme} (ho : l = .single '(' → ∀ ls', ls ≠ .single '?' :: .single '<' :: ls') :
    partsFrom .plain (l :: ls) = .lexeme l :: partsFrom .plain ls := by
  rw [partsFrom]
  all_goals grind

theorem after_plain {l : Lexeme} {ls : List Lexeme}
    (ho : l = .single '(' → ∀ ls', ls ≠ .single '?' :: .single '<' :: ls') :
    Region.after .plain (l :: ls) = Region.after .plain ls := by
  rw [Region.after]
  grind

theorem partsFrom_append {ms : List Lexeme} (h : Detached ms) (r : Region) (ls : List Lexeme) :
    partsFrom r (ls ++ ms) = partsFrom r ls ++ partsFrom (Region.after r ls) ms := by
  fun_induction partsFrom r ls with
  | case1 r => cases r <;> rfl
  | case2 l ls ih => exact congrArg _ ih
  | case3 ls ih =>
      simp only [List.cons_append, partsFrom, h.ofNext_append, Region.after, ih]
  | case4 ls ih => exact congrArg _ ih
  | case5 ls ih => exact congrArg _ ih
  | case6 ls hn ih =>
      rw [after_plain (by simp), List.cons_append, List.cons_append, ← ih, partsFrom]
      exact h.append_ne_cons (by decide) hn
  | case7 ls hn ih =>
      rw [after_plain (by simp), List.cons_append, List.cons_append, ← ih, partsFrom]
      exact h.append_ne_cons (by decide) hn
  | case8 l ls ho _ _ hl hr ih =>
      have hopen : l = .single '(' → ∀ ls', ls ≠ .single '?' :: .single '<' :: ls' :=
        fun hl ls' he => ho ls' hl he
      rw [after_plain hopen, List.cons_append, List.cons_append, ← ih, partsFrom_plain hl hr]
      intro hl' ns he
      -- a bracket and a question mark that the lexemes end in are followed by no angle bracket
      rcases ls with _ | ⟨m, ls⟩
      · exact h.ne_cons (by decide) _ he
      · obtain ⟨rfl, htail⟩ := List.cons.inj he
        have hangle (ls' : List Lexeme) : ls ≠ .single '<' :: ls' :=
          fun hls => hopen hl' ls' (by rw [hls])
        exact h.append_ne_cons (by decide) hangle ns htail

/-- Lexemes that stand for themselves whatever passes run, and that end no name. -/
def Inert (ls : List Lexeme) : Prop :=
  ∀ l ∈ ls, l ∉ replaced ∧ l ≠ .single '>'

instance (ls : List Lexeme) : Decidable (Inert ls) :=
  inferInstanceAs (Decidable (∀ l ∈ ls, l ∉ replaced ∧ l ≠ .single '>'))

theorem Inert.append {ls ms : List Lexeme} (h : Inert ls) (h' : Inert ms) : Inert (ls ++ ms) :=
  List.forall_mem_append.2 ⟨h, h'⟩

theorem after_lexeme {l : Lexeme} (h : l ∉ replaced) (done : List Pass) :
    (Part.lexeme l).after done = l.text := by
  rw [Part.after_eq_source fun _ _ hi => ?_]
  · rfl
  · rw [Part.image?_lexeme h] at hi
    cases hi

theorem Inert.ne_pair {ls : List Lexeme} (h : Inert ls) {l : Lexeme} (hl : l ∈ ls) :
    l ≠ .pair '>' := by
  rintro rfl
  exact (h _ hl).1 (by decide)

theorem Inert.draft_name {ls : List Lexeme} (h : Inert ls) (done : List Pass) (ms : List Lexeme) :
    draft done .name (ls ++ ms) = ls.flatMap Lexeme.text ++ draft done .name ms := by
  induction ls with
  | nil => rfl
  | cons l ls ih =>
      obtain ⟨hl, hc⟩ := h l (List.mem_cons_self ..)
      have hname : Region.inName l = .name :=
        Region.inName_eq_name hc (h.ne_pair (List.mem_cons_self ..))
      have hls := ih fun m hm => h m (List.mem_cons_of_mem l hm)
      rw [List.cons_append, draft, partsFrom, List.flatMap_cons, after_lexeme hl, hname,
        List.flatMap_cons, List.append_assoc, ← hls, draft]

theorem draft_name_close (done : List Pass) (ls : List Lexeme) :
    draft done .name (.single '>' :: ls) = '>' :: draft done .plain ls := by
  rw [draft, partsFrom, List.flatMap_cons, after_single (by decide)]
  rfl

theorem draft_plain {l : Lexeme} (hl : l ∉ replaced) (hleft : l ≠ .single '<')
    (hright : l ≠ .single '>') {ls : List Lexeme}
    (ho : l = .single '(' → ∀ ls', ls ≠ .single '?' :: .single '<' :: ls') (done : List Pass) :
    draft done .plain (l :: ls) = l.text ++ draft done .plain ls := by
  rw [draft, partsFrom_plain hleft hright ho, List.flatMap_cons, after_lexeme hl, draft]

theorem draft_opener (done : List Pass) (ls : List Lexeme) :
    draft done .plain (.single '(' :: .single '?' :: .single '<' :: ls) =
      ['(', '?', '<'] ++ draft done (.ofNext ls) ls := by
  rw [draft, partsFrom, List.flatMap_cons, Part.after_eq_source (by rintro _ _ ⟨⟩), draft]
  rfl

theorem draft_redirect {done : List Pass} (hd : .redirects ∈ done) {a : Angle} {ls : List Lexeme}
    (hn : ∀ ls', ls ≠ .single a.char :: ls') :
    draft done .plain (.single a.char :: ls) =
      redirectGroup a.char false ++ draft done .plain ls := by
  have himage : (Part.redirect a false).after done = redirectGroup a.char false :=
    Part.after_eq_image rfl hd
  cases a with
  | left =>
      rw [draft, Angle.char, partsFrom.eq_6 _ hn, List.flatMap_cons, himage, draft]
      rfl
  | right =>
      rw [draft, Angle.char, partsFrom.eq_7 _ hn, List.flatMap_cons, himage, draft]
      rfl

theorem ne_of_isNameChar {c d : Char} (h : Regex.isNameChar c = true)
    (hd : Regex.isNameChar d = false) : c ≠ d := by
  rintro rfl
  exact absurd (h.symm.trans hd) (by decide)

theorem not_mem_replaced_of_isNameChar {c : Char} (h : Regex.isNameChar c = true) :
    .single c ∉ replaced := by
  have hspace := ne_of_isNameChar h (d := ' ') (by decide)
  have hsemicolon := ne_of_isNameChar h (d := ';') (by decide)
  have hslash := ne_of_isNameChar h (d := '/') (by decide)
  simp [replaced, hspace, hsemicolon, hslash]

theorem flatMap_text_map_single (cs : List Char) :
    (cs.map Lexeme.single).flatMap Lexeme.text = cs := by
  induction cs with
  | nil => rfl
  | cons c cs ih => exact congrArg (c :: ·) ih

namespace IsGroupName

variable {id : List Char} {done : List Pass}

theorem inert (h : IsGroupName id) : Inert (id.map .single) := by
  intro l hl
  obtain ⟨c, hc, rfl⟩ := List.mem_map.1 hl
  have hname := h.chars c hc
  refine ⟨not_mem_replaced_of_isNameChar hname, fun he => ?_⟩
  exact ne_of_isNameChar hname (d := '>') (by decide) (Lexeme.single.inj he)

theorem draft_name (h : IsGroupName id) (ls : List Lexeme) :
    draft done .name (id.map .single ++ .single '>' :: ls) =
      id ++ ['>'] ++ draft done .plain ls := by
  rw [h.inert.draft_name, flatMap_text_map_single, draft_name_close, List.append_assoc]
  rfl

theorem draft_plain (h : IsGroupName id) (ls : List Lexeme) :
    draft done .plain (id.map .single ++ ls) = id ++ draft done .plain ls := by
  have hchars := h.chars
  clear h
  induction id with
  | nil => rfl
  | cons c id ih =>
      have hc := hchars c (List.mem_cons_self ..)
      have hid := ih fun d hd => hchars d (List.mem_cons_of_mem c hd)
      have hne {d : Char} (hd : Regex.isNameChar d = false) : Lexeme.single c ≠ .single d :=
        fun he => ne_of_isNameChar hc hd (Lexeme.single.inj he)
      rw [List.map_cons, List.cons_append, Fragment.draft_plain (not_mem_replaced_of_isNameChar hc)
        (hne (by decide)) (hne (by decide)) (fun he => absurd he (hne (by decide))), hid]
      rfl

theorem ne_left (h : IsGroupName id) (ls ls' : List Lexeme) :
    id.map Lexeme.single ++ ls ≠ .single '<' :: ls' := by
  cases id with
  | nil => exact absurd rfl h.ne_nil
  | cons c id =>
      intro he
      have hc := h.chars c (List.mem_cons_self ..)
      exact ne_of_isNameChar hc (d := '<') (by decide) (Lexeme.single.inj (List.cons.inj he).1)

theorem ofNext_eq (h : IsGroupName id) (ls : List Lexeme) :
    Region.ofNext (id.map .single ++ ls) =
      if (GroupSyntax.named id).spared then .name else .plain := by
  cases id with
  | nil => exact absurd rfl h.ne_nil
  | cons c id => rfl

end IsGroupName

namespace GroupSyntax

variable {s : GroupSyntax} {done : List Pass}

theorem detached (s : GroupSyntax) (ls : List Lexeme) : Detached (s.lexemes ++ ls) := by
  intro c hc
  cases s <;> simp [lexemes, eq_comm] at hc ⊢ <;> exact hc

theorem draft_spared (hp : s.Proper) (hs : s.spared = true) (ls : List Lexeme) :
    draft done .plain (s.lexemes ++ ls) = s.text ++ draft done .plain ls := by
  cases s with
  | lookbehind negated =>
      refine (draft_opener done _).trans ?_
      cases negated with
      | false => exact congrArg _ (draft_plain (by decide) (by decide) (by decide) (by simp) done)
      | true => exact congrArg _ (draft_plain (by decide) (by decide) (by decide) (by simp) done)
  | named id =>
      have hname : draft done .name (id.map .single ++ .single '>' :: ls) = _ := hp.draft_name ls
      have hnext := hp.ofNext_eq (.single '>' :: ls)
      rw [hs, if_pos rfl] at hnext
      simp only [lexemes, text, List.append_assoc, List.cons_append, List.nil_append,
        draft_opener, hnext, hname, List.flatMap_cons, List.flatMap_append, flatMap_text_map_single]
      rfl
  | longNamed => cases hs
  | atomic => cases hs
  | reference => cases hs

theorem draft_spaced (hd : .redirects ∈ done) (hp : s.Proper) (hs : s.spared = false)
    (ls : List Lexeme) :
    draft done .plain (s.lexemes ++ ls) = s.spaced ++ draft done .plain (.single '>' :: ls) := by
  have hplain {c : Char} (hc : c ∈ ['?', 'P']) (ms : List Lexeme) :
      draft done .plain (.single c :: ms) = c :: draft done .plain ms := by
    rcases List.mem_pair.1 hc with rfl | rfl
    · exact draft_plain (by decide) (by decide) (by decide) (by simp) done
    · exact draft_plain (by decide) (by decide) (by decide) (by simp) done
  have hopen {c : Char} (hc : c ≠ '<') (ms : List Lexeme) :
      draft done .plain (.single '(' :: .single '?' :: .single c :: ms) =
        '(' :: draft done .plain (.single '?' :: .single c :: ms) :=
    draft_plain (by decide) (by decide) (by decide) (by simp [hc]) done
  have hpair (ms : List Lexeme) :
      draft done .plain (.pair 'k' :: ms) = ['\\', 'k'] ++ draft done .plain ms :=
    draft_plain (by decide) (by decide) (by decide) (by simp) done
  cases s with
  | lookbehind => cases hs
  | named id =>
      have hnext := hp.ofNext_eq (.single '>' :: ls)
      rw [hs, if_neg Bool.false_ne_true] at hnext
      simp only [lexemes, spaced, List.append_assoc, List.cons_append, List.nil_append,
        draft_opener, hnext, hp.draft_plain]
  | longNamed id =>
      have hleft := draft_redirect hd (a := .left) (hp.ne_left (.single '>' :: ls))
      simp only [lexemes, spaced, List.append_assoc, List.cons_append, List.nil_append,
        hopen (c := 'P') (by decide), hplain (c := '?') (by decide), hplain (c := 'P') (by decide)]
      exact congrArg (['(', '?', 'P'] ++ ·) (hleft.trans (congrArg _ (hp.draft_plain _)))
  | atomic =>
      simp only [lexemes, spaced, List.cons_append, List.nil_append,
        hopen (c := '>') (by decide), hplain (c := '?') (by decide)]
  | reference id =>
      have hleft := draft_redirect hd (a := .left) (hp.ne_left (.single '>' :: ls))
      simp only [lexemes, spaced, List.append_assoc, List.cons_append, List.nil_append, hpair]
      exact congrArg (['\\', 'k'] ++ ·) (hleft.trans (congrArg _ (hp.draft_plain _)))

theorem draft_inName (hp : s.Proper) (done : List Pass) (ls : List Lexeme) :
    ∃ r, draft done .name (s.lexemes ++ ls) = s.text ++ draft done r ls := by
  have hclose {front : List Lexeme} (hf : Inert front) (h : s.lexemes = front ++ [.single '>']) :
      draft done .name (s.lexemes ++ ls) = s.text ++ draft done .plain ls := by
    rw [text, h, List.append_assoc, hf.draft_name, List.singleton_append, draft_name_close]
    simp [Lexeme.text]
  cases s with
  | lookbehind negated =>
      have hfront : Inert (GroupSyntax.lookbehind negated).lexemes := by
        cases negated <;> decide
      exact ⟨.name, hfront.draft_name done ls⟩
  | named id =>
      have hfront : Inert [.single '(', .single '?', .single '<'] := by decide
      exact ⟨.plain, hclose (hfront.append hp.inert) rfl⟩
  | longNamed id =>
      have hfront : Inert [.single '(', .single '?', .single 'P', .single '<'] := by decide
      exact ⟨.plain, hclose (hfront.append hp.inert) rfl⟩
  | atomic =>
      have hfront : Inert [.single '(', .single '?'] := by decide
      exact ⟨.plain, hclose hfront rfl⟩
  | reference id =>
      have hfront : Inert [.pair 'k', .single '<'] := by decide
      exact ⟨.plain, hclose (hfront.append hp.inert) rfl⟩

def kept : GroupSyntax → List Char
  | .lookbehind _ => []
  | .named id => ['(', '?', '<'] ++ id
  | .longNamed _ => ['(', '?', 'P']
  | .atomic => ['(', '?']
  | .reference _ => ['\\', 'k']

theorem flatMap_text_enclosed (front : List Lexeme) (id : List Char) :
    (front ++ id.map Lexeme.single ++ [Lexeme.single '>']).flatMap Lexeme.text =
      front.flatMap Lexeme.text ++ (id ++ ['>']) := by
  rw [List.flatMap_append, List.flatMap_append, flatMap_text_map_single, List.append_assoc]
  rfl

theorem text_eq_kept (hs : s.spared = false) :
    ∃ (a : Angle) (rest : List Char), s.text = s.kept ++ a.char :: rest := by
  cases s with
  | lookbehind => cases hs
  | named id => exact ⟨.right, [], (flatMap_text_enclosed _ id).trans (List.append_assoc ..).symm⟩
  | longNamed id => exact ⟨.left, id ++ ['>'], flatMap_text_enclosed _ id⟩
  | atomic => exact ⟨.right, [], rfl⟩
  | reference id => exact ⟨.left, id ++ ['>'], flatMap_text_enclosed _ id⟩

theorem spaced_append_eq_kept (hs : s.spared = false) {cs : List Char} (hc : cs.head? = some '(') :
    ∃ rest, s.spaced ++ cs = s.kept ++ '(' :: rest := by
  obtain ⟨cs, rfl⟩ := List.head?_eq_some_iff.1 hc
  cases s with
  | lookbehind => cases hs
  | named id => exact ⟨cs, rfl⟩
  | longNamed id => exact ⟨_, rfl⟩
  | atomic => exact ⟨cs, rfl⟩
  | reference id => exact ⟨_, rfl⟩

end GroupSyntax

theorem body_eq_draft (fs : Flags) (cs : List Char) :
    body fs cs = draft (Pass.order.filter (Pass.isOn fs)) .plain (lexemes cs) := by
  rw [← Pass.runAll_order, runAll_eq fs Pass.order_pairwise]
  rfl

theorem head?_draft_right {done : List Pass} (hd : .redirects ∈ done) (ls : List Lexeme) :
    (draft done .plain (.single '>' :: ls)).head? = some '(' := by
  obtain ⟨doubled, ms, hparts⟩ : ∃ doubled ms,
      partsFrom .plain (.single '>' :: ls) = .redirect .right doubled :: ms := by
    by_cases h : ∃ ls', ls = .single '>' :: ls'
    · obtain ⟨ls', rfl⟩ := h
      exact ⟨true, _, partsFrom.eq_5 ls'⟩
    · exact ⟨false, _, partsFrom.eq_7 ls fun ls' hls => h ⟨ls', hls⟩⟩
  rw [draft, hparts, List.flatMap_cons, Part.after_eq_image rfl hd]
  cases doubled <;> rfl

theorem IsGroupName.backslash_not_mem {id : List Char} (h : IsGroupName id) : '\\' ∉ id :=
  fun hm => ne_of_isNameChar (h.chars _ hm) (d := '\\') (by decide) rfl

namespace GroupSyntax

variable {s : GroupSyntax}

theorem lone_not_mem (hp : s.Proper) : .single '\\' ∉ s.lexemes := by
  cases s with
  | lookbehind negated => cases negated <;> decide
  | named id => simpa [lexemes] using hp.backslash_not_mem
  | longNamed id => simpa [lexemes] using hp.backslash_not_mem
  | atomic => decide
  | reference id => simpa [lexemes] using hp.backslash_not_mem

theorem lexemes_text_append (hp : s.Proper) (cs : List Char) :
    Fragment.lexemes (s.text ++ cs) = s.lexemes ++ Fragment.lexemes cs := by
  have hlone := lone_not_mem hp
  have hread : Fragment.lexemes s.text = s.lexemes :=
    lexemes_flatMap_text fun l hl he => hlone (he ▸ List.dropLast_subset _ hl)
  rw [lexemes_append (endsLone_eq_false_of_not_mem (hread ▸ hlone)), hread]

theorem body_append (fs : Flags) {before : List Char} (hb : endsLone before = false)
    (hp : s.Proper) (after : List Char) :
    body fs (before ++ (s.text ++ after)) = body fs before ++
      draft (Pass.order.filter (Pass.isOn fs)) (Region.after .plain (Fragment.lexemes before))
        (s.lexemes ++ Fragment.lexemes after) := by
  rw [body_eq_draft, body_eq_draft, lexemes_append hb, lexemes_text_append hp, draft,
    partsFrom_append (s.detached _), List.flatMap_append, draft, draft]

end GroupSyntax

/-- Behind any text that does not escape it, group syntax comes out as it went in exactly when it is a
lookbehind or a group whose name starts with a letter, or stands where the redirections see a name
that has not ended. Elsewhere the `>` of any other syntax is read like one outside of groups, and its
`<` gets spaces around it. -/
theorem body_groupSyntax {fs : Flags} (hr : fs.redirectSpace = true) {before : List Char}
    (hb : endsLone before = false) {s : GroupSyntax} (hp : s.Proper) (after : List Char) :
    let region := Region.after .plain (lexemes before)
    let result := body fs (before ++ (s.text ++ after))
    ((∃ rest, result = body fs before ++ (s.text ++ rest)) ↔ s.spared = true ∨ region = .name) ∧
    (region = .plain →
      (s.spared = true → result = body fs before ++ (s.text ++ body fs after)) ∧
      (s.spared = false → result = body fs before ++ (s.spaced ++ body fs ('>' :: after)))) := by
  intro region result
  have hd : .redirects ∈ Pass.order.filter (Pass.isOn fs) :=
    List.mem_filter.2 ⟨by decide, hr⟩
  have hresult : result = _ := GroupSyntax.body_append fs hb hp after
  have hspared (hplain : region = .plain) (hs : s.spared = true) :
      result = body fs before ++ (s.text ++ body fs after) := by
    rw [hresult, show Region.after .plain (lexemes before) = _ from hplain,
      GroupSyntax.draft_spared hp hs, body_eq_draft fs after]
  have hspaced (hplain : region = .plain) (hs : s.spared = false) :
      result = body fs before ++ (s.spaced ++ body fs ('>' :: after)) := by
    rw [hresult, show Region.after .plain (lexemes before) = _ from hplain,
      GroupSyntax.draft_spaced hd hp hs, body_eq_draft fs ('>' :: after),
      lexemes_cons (by decide)]
  refine ⟨⟨?_, ?_⟩, fun hplain => ⟨hspared hplain, hspaced hplain⟩⟩
  · rintro ⟨rest, hrest⟩
    by_contra hn
    rw [not_or, Bool.not_eq_true] at hn
    obtain ⟨hs, hname⟩ := hn
    have hplain : region = .plain := by
      cases h : region with
      | plain => rfl
      | name => exact absurd h hname
    -- where the two texts part, one has an angle bracket and the other the bracket of its group
    have hhead : (body fs ('>' :: after)).head? = some '(' := by
      rw [body_eq_draft, lexemes_cons (by decide)]
      exact head?_draft_right hd _
    obtain ⟨a, tail, htext⟩ := GroupSyntax.text_eq_kept hs
    obtain ⟨tail', hkept⟩ := GroupSyntax.spaced_append_eq_kept hs hhead
    rw [hspaced hplain hs, hkept, htext, List.append_assoc, List.append_cancel_left_eq,
      List.append_cancel_left_eq] at hrest
    cases a <;> cases hrest
  · intro h
    cases hregion : region with
    | plain =>
        rw [hregion] at h
        exact ⟨_, hspared hregion (h.resolve_right (by decide))⟩
    | name =>
        obtain ⟨r, hcopied⟩ := GroupSyntax.draft_inName hp (Pass.order.filter (Pass.isOn fs))
          (lexemes after)
        refine ⟨draft (Pass.order.filter (Pass.isOn fs)) r (lexemes after), ?_⟩
        rw [hresult, show Region.after .plain (lexemes before) = _ from hregion, hcopied]

def redirecting : Flags where
  redirectSpace := true

theorem isGroupName_letter : IsGroupName ['n', '1'] where
  ne_nil := by decide
  chars := List.all_eq_true.1 (by decide)
  noDigit := by
    rintro c ⟨⟩
    decide

theorem isGroupName_underscore : IsGroupName ['_', 'n'] where
  ne_nil := by decide
  chars := List.all_eq_true.1 (by decide)
  noDigit := by
    rintro c ⟨⟩
    decide

theorem body_groupSyntax_names :
    redirecting.redirectSpace = true ∧ endsLone ['a', '<'] = false ∧
    GroupSyntax.Proper (.named ['n', '1']) ∧ GroupSyntax.Proper (.named ['_', 'n']) ∧
    Region.after .plain (lexemes ['a', '<']) = .plain ∧
    body redirecting "a<(?<n1>b)".toList =
      body redirecting ['a', '<'] ++ ("(?<n1>".toList ++ body redirecting ['b', ')']) ∧
    body redirecting "a<(?<_n>b)".toList =
      body redirecting ['a', '<'] ++ ("(?<_n".toList ++ body redirecting ['>', 'b', ')']) := by
  have hb : endsLone ['a', '<'] = false := by decide
  have hr : redirecting.redirectSpace = true := rfl
  obtain ⟨-, hletter⟩ :=
    body_groupSyntax hr hb (s := .named ['n', '1']) isGroupName_letter ['b', ')']
  obtain ⟨-, hunderscore⟩ :=
    body_groupSyntax hr hb (s := .named ['_', 'n']) isGroupName_underscore ['b', ')']
  exact ⟨hr, hb, isGroupName_letter, isGroupName_underscore, by decide,
    (hletter (by decide)).1 (by decide), (hunderscore (by decide)).2 (by decide)⟩

/-- Each of the four fragments is a pattern that `a` or `aa` meets until redirections take spaces
around them. -/
theorem body_angleBracketsLost :
    body redirecting "(?P<n>a)".toList = "(?P(?:[ \\t]*<[ \\t]*)n(?:[ \\t]*>[ \\t]*)a)".toList ∧
    body redirecting "(?<_n>a)".toList = "(?<_n(?:[ \\t]*>[ \\t]*)a)".toList ∧
    body redirecting "(?>a)".toList = "(?(?:[ \\t]*>[ \\t]*)a)".toList ∧
    body redirecting "(?<n>a)\\k<n>".toList =
      "(?<n>a)\\k(?:[ \\t]*<[ \\t]*)n(?:[ \\t]*>[ \\t]*)".toList ∧
    (∀ fragment ∈ ["(?P<n>a)", "(?<_n>a)", "(?>a)"],
      (synthesize fragment {}).matches "a" = .ok true ∧
      (synthesize fragment redirecting).matches "a" ≠ .ok true) ∧
    (synthesize "(?<n>a)\\k<n>" {}).matches "aa" = .ok true ∧
    (synthesize "(?<n>a)\\k<n>" redirecting).matches "aa" ≠ .ok true := by
  refine ⟨?_, ?_, ?_, ?_, ?_, ?_, ?_⟩
  all_goals decide +kernel

end AnswerGrading.Fragment
