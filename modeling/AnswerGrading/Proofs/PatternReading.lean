import AnswerGrading.Proofs.RegularLanguage
import AnswerGrading.Regex.Reader
import Mathlib.Data.List.Forall2

/-!
What the reader makes of texts without captures. A text that means a language is read as pieces for
that language wherever it stands, as long as no quantifier follows.
-/

namespace AnswerGrading.Regex

/-- Neither a comment nor a quantifier starts here. -/
def Calm : List Char → Prop
  | [] => True
  | '(' :: '?' :: ':' :: _ => True
  | c :: _ => c ∉ ['(', '?', '*', '+', '\x7b']

theorem calm_group (cs : List Char) : Calm ('(' :: '?' :: ':' :: cs) := by
  trivial

theorem calm_cons {c : Char} (h : c ∉ ['(', '?', '*', '+', '\x7b']) (cs : List Char) :
    Calm (c :: cs) := by
  unfold Calm
  split
  · trivial
  · trivial
  · rename_i he
    cases he
    exact h

def dotModes (dot : Bool) : Modes :=
  { dotNewline := dot }

variable {dot : Bool}

theorem skip_calm {cs : List Char} (h : Calm cs) : (dotModes dot).skip cs = .ok cs := by
  unfold Calm at h
  split at h
  · rfl
  · rfl
  · rename_i c cs hn
    exact Modes.skip_of_not_layout rfl fun hc => h (hc ▸ List.mem_cons_self ..)

theorem quantity?_calm {cs : List Char} (h : Calm cs) : quantity? (dotModes dot) cs = none := by
  unfold Calm at h
  split at h
  · rfl
  · rfl
  · unfold quantity?
    split <;> simp_all

theorem quantify_calm (e : Expression) {cs : List Char} (h : Calm cs) :
    quantify (dotModes dot) e cs = .ok (e, cs) := by
  unfold quantify
  rw [skip_calm h]
  simp only [bind, Except.bind, quantity?_calm h]
  rfl

theorem quantify_loop {e : Expression} (he : e.repeatable = true) {c : Char} {cs : List Char}
    {least : Nat} (hc : c ≠ '(')
    (hq : quantity? (dotModes dot) (c :: cs) = some (⟨least, none⟩, cs)) (h : Calm cs) :
    quantify (dotModes dot) e (c :: cs) = .ok (.loop least none true e, cs) := by
  unfold quantify
  rw [Modes.skip_of_not_layout rfl hc]
  simp only [bind, Except.bind, hq, he, if_true, skip_calm h]
  unfold Calm at h
  split at h
  · rfl
  · rfl
  · rename_i d ds _
    have hquestion : d ≠ '?' := fun hd => h (by simp [hd])
    have hplus : d ≠ '+' := fun hd => h (by simp [hd])
    simp [hquestion, hplus]
    rfl

/-- Characters that do not stand for themselves. A brace does, but where a quantifier may stand. -/
def special : List Char :=
  [')', '|', '*', '+', '?', '(', '\\', '[', '.', '^', '$']

def blank : CharSet :=
  .union (.union .none (.one ' ')) (.one '\t')

theorem subset_special : ['(', '?', '*', '+', '\x7b'] ⊆ '\x7b' :: special := by
  decide

namespace Reading

/-- The reader gets from one reading to another, in no more steps than it takes characters. -/
def Advances (r : Reading) (cs : List Char) (r' : Reading) (rest : List Char) : Prop :=
  ∃ k, k + rest.length ≤ cs.length ∧ ∀ fuel, run (fuel + k) r cs = run fuel r' rest

theorem Advances.refl (r : Reading) (cs : List Char) : Advances r cs r cs :=
  ⟨0, by omega, fun _ => rfl⟩

theorem Advances.trans {r r' r'' : Reading} {cs ds es : List Char} (h : Advances r cs r' ds)
    (h' : Advances r' ds r'' es) : Advances r cs r'' es := by
  obtain ⟨k, hk, hr⟩ := h
  obtain ⟨l, hl, hr'⟩ := h'
  refine ⟨l + k, by omega, fun fuel => ?_⟩
  rw [← Nat.add_assoc, hr, hr']

theorem run_eq_finish {r r' : Reading} {cs : List Char} (h : Advances r cs r' []) :
    run (cs.length + 1) r cs = r'.finish := by
  obtain ⟨k, hk, hr⟩ := h
  obtain ⟨fuel, hf⟩ := Nat.exists_eq_add_of_le (show k ≤ cs.length from hk)
  rw [hf, show k + fuel + 1 = fuel + 1 + k by omega, hr]
  unfold run
  rfl

theorem advances_of_step {r r' : Reading} {c : Char} {cs rest : List Char}
    (hs : r.modes.skip (c :: cs) = .ok (c :: cs)) (h : r.step (c :: cs) = .ok (r', none, rest))
    (hl : rest.length ≤ cs.length) : Advances r (c :: cs) r' rest := by
  refine ⟨1, by simp; omega, fun fuel => ?_⟩
  rw [run, hs]
  simp only [bind, Except.bind, h]

theorem advances_of_atom {r r' : Reading} {c : Char} {cs rest rest' : List Char}
    {e e' : Expression} (hs : r.modes.skip (c :: cs) = .ok (c :: cs))
    (h : r.step (c :: cs) = .ok (r', some e, rest))
    (hq : quantify r'.modes e rest = .ok (e', rest')) (hl : rest'.length ≤ cs.length) :
    Advances r (c :: cs) (r'.push e') rest' := by
  refine ⟨1, by simp; omega, fun fuel => ?_⟩
  rw [run, hs]
  simp only [bind, Except.bind, h, hq]

def pushAll (r : Reading) (es : List Expression) : Reading :=
  es.foldl (fun r e => r.push e) r

/-- A reading without captures or options, with room for groups inside each other. -/
structure Steady (dot : Bool) (depth : Nat) (r : Reading) : Prop where
  modes : r.modes = dotModes dot
  numbered : r.numbered = false
  room : r.opened.length + depth < maxDepth

theorem push_eq {e : Expression} (he : e ≠ .empty) (r : Reading) :
    r.push e = { r with level := { r.level with pieces := e :: r.level.pieces } } := by
  rw [push, Level.push, if_neg he]

theorem pushAll_eq {es : List Expression} (h : .empty ∉ es) (r : Reading) :
    r.pushAll es =
      { r with level := { r.level with pieces := es.reverse ++ r.level.pieces } } := by
  induction es generalizing r with
  | nil => rfl
  | cons e es ih =>
      have he : e ≠ .empty := fun he => h (he ▸ List.mem_cons_self ..)
      have hes := ih (fun hm => h (List.mem_cons_of_mem _ hm)) (r.push e)
      rw [pushAll, List.foldl_cons, ← pushAll, hes, push_eq he]
      simp

theorem pushAll_append (r : Reading) (es fs : List Expression) :
    r.pushAll (es ++ fs) = (r.pushAll es).pushAll fs :=
  List.foldl_append

theorem Steady.pushAll {depth : Nat} {r : Reading} (h : r.Steady dot depth)
    {es : List Expression} (he : .empty ∉ es) : (r.pushAll es).Steady dot depth := by
  rw [pushAll_eq he]
  exact ⟨h.modes, h.numbered, h.room⟩

theorem Steady.skip_group {depth : Nat} {r : Reading} (h : r.Steady dot depth) (cs : List Char) :
    r.modes.skip ('(' :: '?' :: ':' :: cs) = .ok ('(' :: '?' :: ':' :: cs) := by
  rw [h.modes]
  exact skip_calm (calm_group cs)

theorem Steady.skip_cons {depth : Nat} {r : Reading} (h : r.Steady dot depth) {c : Char}
    (hc : c ≠ '(') (cs : List Char) : r.modes.skip (c :: cs) = .ok (c :: cs) := by
  rw [h.modes]
  exact Modes.skip_of_not_layout rfl hc

theorem Steady.advances_atom {depth : Nat} {r : Reading} (h : r.Steady dot depth) {c : Char}
    {cs rest : List Char} {e : Expression} (hc : c ≠ '(')
    (hs : r.step (c :: cs) = .ok (r, some e, rest)) (hl : rest.length ≤ cs.length)
    (hr : Calm rest) : Advances r (c :: cs) (r.push e) rest :=
  advances_of_atom (h.skip_cons hc cs) hs (h.modes ▸ quantify_calm e hr) hl

theorem step_literal {r : Reading} (hr : r.modes = dotModes dot) {c : Char} (hc : c ∉ special)
    (cs : List Char) : r.step (c :: cs) = .ok (r, some (.char (.one c)), cs) := by
  have hone : r.caselessChar c = .char (.one c) := by rw [caselessChar, hr]; rfl
  unfold special at hc
  unfold step
  split <;> simp_all

theorem step_escaped {r : Reading} (hr : r.modes = dotModes dot) {c d : Char} {cs : List Char}
    (h : escape false false (c :: cs) = .ok (.exact d, cs)) :
    r.step ('\\' :: c :: cs) = .ok (r, some (.char (.one d)), cs) := by
  have hcaseless : r.modes.caseless = false := by rw [hr]; rfl
  change r.escaped (c :: cs) = _
  rw [escaped, hcaseless, h]
  rfl

theorem step_textStart {r : Reading} (hr : r.modes = dotModes dot) (cs : List Char) :
    r.step ('^' :: cs) = .ok (r, some (.anchor .textStart), cs) := by
  rw [step, hr]
  rfl

theorem step_textEnd {r : Reading} (hr : r.modes = dotModes dot) (cs : List Char) :
    r.step ('$' :: cs) = .ok (r, some (.anchor .textEnd), cs) := by
  rw [step, hr]
  rfl

theorem bracket_blank (cs : List Char) :
    bracket false (' ' :: '\\' :: 't' :: ']' :: cs) = .ok (.char blank, cs) := by
  rfl

theorem step_blank {r : Reading} (hr : r.modes = dotModes dot) (cs : List Char) :
    r.step ('[' :: ' ' :: '\\' :: 't' :: ']' :: cs) = .ok (r, some (.char blank), cs) := by
  have hcaseless : r.modes.caseless = false := by rw [hr]; rfl
  rw [step, hcaseless, bracket_blank]
  rfl

def inGroup (r : Reading) : Reading :=
  r.openScope (.modes r.modes)

theorem Steady.inGroup {depth : Nat} {r : Reading} (h : r.Steady dot (depth + 1)) :
    r.inGroup.Steady dot depth :=
  ⟨h.modes, h.numbered, by simpa [Reading.inGroup, openScope, Nat.succ_add_eq_add_succ] using h.room⟩

theorem Steady.step_group {depth : Nat} {r : Reading} (h : r.Steady dot (depth + 1))
    (cs : List Char) : r.step ('(' :: '?' :: ':' :: cs) = .ok (r.inGroup, none, cs) := by
  have hroom : ¬maxDepth ≤ r.opened.length + 1 := by
    have := h.room
    omega
  have hskip (c : Char) (hc : c ≠ '(') (ds : List Char) : r.modes.skip (c :: ds) = .ok (c :: ds) := by
    rw [h.modes]
    exact Modes.skip_of_not_layout rfl hc
  change r.openGroup _ = _
  have hoptions (n k : Nat) : options n (k + 1) false r.modes (':' :: cs) =
      .ok (r.modes, true, cs) := by
    rw [options, hskip ':' (by decide)]
    rfl
  rw [openGroup, if_neg hroom, hskip '?' (by decide)]
  change r.openOptions _ = _
  rw [openOptions, hoptions]
  rfl

theorem step_close {r : Reading} (hn : r.numbered = false) (l : Level) (cs : List Char) :
    ({ r.inGroup with level := l } : Reading).step (')' :: cs) = .ok (r, some l.body, cs) := by
  have hbody : ({ r.inGroup with level := l } : Reading).levelBody = .ok l.body := by
    rw [levelBody, if_neg]
    rintro ⟨-, h, -⟩
    exact absurd (hn.symm.trans h) (by decide)
  have hclose : ({ r.inGroup with level := l } : Reading).closeScope (cs.length + 1) =
      .ok (r, some l.body) := by
    rw [closeScope]
    simp only [inGroup, openScope, bind, Except.bind] at hbody ⊢
    rw [hbody]
    rfl
  rw [step, hclose]
  rfl

theorem Steady.advances_open {depth : Nat} {r : Reading} (h : r.Steady dot (depth + 1))
    (cs : List Char) : Advances r ('(' :: '?' :: ':' :: cs) r.inGroup cs :=
  advances_of_step (h.skip_group cs) (h.step_group cs) (by simp; omega)

theorem Steady.advances_close {depth : Nat} {r : Reading} (h : r.Steady dot (depth + 1))
    (l : Level) {rest : List Char} (hr : Calm rest) :
    Advances { r.inGroup with level := l } (')' :: rest) (r.push l.body) rest :=
  advances_of_atom (h.skip_cons (by decide) rest) (step_close h.numbered l rest)
    (h.modes ▸ quantify_calm _ hr) (Nat.le_refl _)

end Reading

/-- The pieces of a text, read wherever no quantifier follows it. -/
structure Reads (dot : Bool) (depth : Nat) (text : List Char) (es : List Expression) : Prop where
  calm : ∀ {rest}, Calm rest → Calm (text ++ rest)
  solid : .empty ∉ es
  advances : ∀ {r : Reading} {rest}, r.Steady dot depth → Calm rest →
    r.Advances (text ++ rest) (r.pushAll es) rest

namespace Reads

variable {depth : Nat}

theorem nil : Reads dot depth [] [] :=
  ⟨id, List.not_mem_nil, fun _ _ => .refl _ _⟩

theorem append {text more : List Char} {es fs : List Expression} (h : Reads dot depth text es)
    (h' : Reads dot depth more fs) : Reads dot depth (text ++ more) (es ++ fs) where
  calm hr := by
    rw [List.append_assoc]
    exact h.calm (h'.calm hr)
  solid hm := (List.mem_append.1 hm).elim h.solid h'.solid
  advances hr hc := by
    rw [List.append_assoc, Reading.pushAll_append]
    exact (h.advances hr (h'.calm hc)).trans (h'.advances (hr.pushAll h.solid) hc)

theorem literal {c : Char} (hc : c ∉ '\x7b' :: special) :
    Reads dot depth [c] [.char (.one c)] where
  calm _ := calm_cons (fun h => hc (subset_special h)) _
  solid := by simp
  advances hr hrest := by
    have hs : c ∉ special := fun h => hc (List.mem_cons_of_mem _ h)
    have ho : c ≠ '(' := fun h => hs (h ▸ by decide)
    exact hr.advances_atom ho (Reading.step_literal hr.modes hs _) (Nat.le_refl _) hrest

theorem escaped {c d : Char}
    (h : ∀ cs, escape false false (c :: cs) = .ok (.exact d, cs)) :
    Reads dot depth ['\\', c] [.char (.one d)] where
  calm _ := calm_cons (by decide) _
  solid := by simp
  advances hr hrest :=
    hr.advances_atom (by decide) (Reading.step_escaped hr.modes (h _)) (Nat.le_succ _) hrest

theorem textStart : Reads dot depth ['^'] [.anchor .textStart] where
  calm _ := calm_cons (by decide) _
  solid := by simp
  advances hr hrest :=
    hr.advances_atom (by decide) (Reading.step_textStart hr.modes _) (Nat.le_refl _) hrest

theorem textEnd : Reads dot depth ['$'] [.anchor .textEnd] where
  calm _ := calm_cons (by decide) _
  solid := by simp
  advances hr hrest :=
    hr.advances_atom (by decide) (Reading.step_textEnd hr.modes _) (Nat.le_refl _) hrest

theorem blanks {c : Char} {least : Nat} (hc : c ≠ '(')
    (hq : ∀ cs, quantity? (dotModes dot) (c :: cs) = some (⟨least, none⟩, cs)) :
    Reads dot depth ['[', ' ', '\\', 't', ']', c] [.loop least none true (.char blank)] where
  calm _ := calm_cons (by decide) _
  solid := by simp
  advances hr hrest := by
    refine Reading.advances_of_atom (hr.skip_cons (by decide) _) (Reading.step_blank hr.modes _)
      (hr.modes ▸ quantify_loop rfl hc (hq _) hrest) ?_
    simp
    omega

theorem sequence_ne_empty {es : List Expression} (hn : es ≠ []) (h : .empty ∉ es) :
    Expression.sequence es ≠ .empty := by
  match es with
  | [e] => exact fun he => h (he ▸ List.mem_singleton_self _)
  | e :: f :: es => exact fun he => nomatch he

def grouped (es : List Expression) : List Expression :=
  if es = [] then [] else [.sequence es]

theorem pushAll_grouped (es : List Expression) (r : Reading) :
    r.pushAll (grouped es) = r.push (.sequence es) := by
  unfold grouped
  split
  · rename_i he
    rw [he]
    rfl
  · rfl

theorem group {text : List Char} {es : List Expression} (h : Reads dot depth text es) :
    Reads dot (depth + 1) (['(', '?', ':'] ++ text ++ [')']) (grouped es) where
  calm _ := by
    rw [List.append_assoc, List.append_assoc]
    exact calm_group _
  solid := by
    unfold grouped
    split
    · exact List.not_mem_nil
    · rename_i hn
      exact fun he => sequence_ne_empty hn h.solid (List.mem_singleton.1 he).symm
  advances {r rest} hr hrest := by
    have hopen := hr.advances_open (text ++ ')' :: rest)
    have hinner := h.advances hr.inGroup (calm_cons (c := ')') (by decide) rest)
    have hpush : r.inGroup.pushAll es = { r.inGroup with level := ⟨[], es.reverse⟩ } := by
      rw [Reading.pushAll_eq h.solid]
      simp [Reading.inGroup, Reading.openScope]
    have hbody : Level.body ⟨[], es.reverse⟩ = .sequence es := by simp [Level.body]
    have hclose := hr.advances_close ⟨[], es.reverse⟩ hrest
    rw [hbody, ← hpush] at hclose
    rw [pushAll_grouped]
    simpa using (hopen.trans hinner).trans hclose

theorem either {text more : List Char} {es fs : List Expression} (h : Reads dot depth text es)
    (h' : Reads dot depth more fs) :
    Reads dot (depth + 1) (['(', '?', ':'] ++ text ++ ['|'] ++ more ++ [')'])
      [.alt (.sequence es) (Expression.sequence fs).alone] where
  calm _ := by
    simp only [List.append_assoc]
    exact calm_group _
  solid := by simp
  advances {r rest} hr hrest := by
    have hopen := hr.advances_open (text ++ '|' :: (more ++ ')' :: rest))
    have hfirst := h.advances hr.inGroup
      (calm_cons (c := '|') (by decide) (more ++ ')' :: rest))
    have hsteady := hr.inGroup.pushAll h.solid
    have hskip := hsteady.skip_cons (c := '|') (by decide) (more ++ ')' :: rest)
    have hbar := Reading.advances_of_step hskip rfl (Nat.le_refl _)
    have hsteady' : (r.inGroup.pushAll es).bar.Steady dot depth :=
      ⟨hsteady.modes, hsteady.numbered, hsteady.room⟩
    have hsecond := h'.advances hsteady' (calm_cons (c := ')') (by decide) rest)
    have hpush : (r.inGroup.pushAll es).bar.pushAll fs =
        { r.inGroup with level := ⟨[.sequence es], fs.reverse⟩ } := by
      rw [Reading.pushAll_eq h'.solid, Reading.pushAll_eq h.solid]
      simp [Reading.inGroup, Reading.openScope, Reading.bar, Level.bar]
    have hbody : Level.body ⟨[.sequence es], fs.reverse⟩ =
        .alt (.sequence es) (Expression.sequence fs).alone := by
      simp [Level.body, Expression.choice]
    have hclose := hr.advances_close ⟨[.sequence es], fs.reverse⟩ hrest
    rw [hbody, ← hpush] at hclose
    change r.Advances _ (r.push _) rest
    simpa using ((hopen.trans hfirst).trans hbar).trans (hsecond.trans hclose)

end Reads

theorem read_of_reads {depth : Nat} (hd : depth < maxDepth) {text : List Char}
    {es : List Expression} (h : Reads dot depth text es) :
    Source.read (dotModes dot) text = .ok ⟨.sequence es, [], 0⟩ := by
  have hr : Reading.Steady dot depth { modes := dotModes dot } := ⟨rfl, rfl, by simpa using hd⟩
  have hrun : Reading.Advances _ (text ++ []) _ [] := h.advances hr trivial
  rw [List.append_nil] at hrun
  rw [Source.read, Reading.run_eq_finish hrun, Reading.pushAll_eq h.solid]
  simp [Reading.finish, Reading.levelBody, Level.body]

theorem reads_anchored {depth : Nat} {text : List Char} {es : List Expression}
    (h : Reads dot depth text es) :
    Reads dot (depth + 1) (['^', '(', '?', ':'] ++ text ++ [')', '$'])
      (.anchor .textStart :: (Reads.grouped es ++ [.anchor .textEnd])) := by
  simpa using Reads.textStart.append (h.group.append Reads.textEnd)

/-- The text is read as pieces for the language. -/
def Means (dot : Bool) (depth : Nat) (text : List Char) (L : Language Char) : Prop :=
  ∃ es Ls, Reads dot depth text es ∧ List.Forall₂ Expression.Denotes es Ls ∧ Ls.prod = L

namespace Means

variable {depth : Nat} {L M : Language Char} {text more : List Char}

theorem nil : Means dot depth [] 1 :=
  ⟨[], [], .nil, .nil, rfl⟩

theorem append (h : Means dot depth text L) (h' : Means dot depth more M) :
    Means dot depth (text ++ more) (L * M) := by
  obtain ⟨es, Ls, hr, hd, rfl⟩ := h
  obtain ⟨fs, Ms, hr', hd', rfl⟩ := h'
  exact ⟨es ++ fs, Ls ++ Ms, hr.append hr', List.rel_append hd hd', List.prod_append⟩

theorem of_reads {e : Expression} (h : Reads dot depth text [e]) (hd : e.Denotes L) :
    Means dot depth text L :=
  ⟨[e], [L], h, .cons hd .nil, List.prod_singleton⟩

theorem literal {c : Char} (hc : c ∉ '\x7b' :: special) : Means dot depth [c] {[c]} :=
  of_reads (.literal hc) (Expression.denotes_one c)

theorem escaped {c d : Char} (h : ∀ cs, escape false false (c :: cs) = .ok (.exact d, cs)) :
    Means dot depth ['\\', c] {[d]} :=
  of_reads (.escaped h) (Expression.denotes_one d)

theorem blanks {c : Char} {least : Nat} (hc : c ≠ '(')
    (hq : ∀ cs, quantity? (dotModes dot) (c :: cs) = some (⟨least, none⟩, cs)) :
    Means dot depth ['[', ' ', '\\', 't', ']', c] {w | least ≤ w.length ∧ w ∈ wordsOver blank} :=
  of_reads (.blanks hc hq) (Expression.denotes_loop_char least true blank)

theorem group (h : Means dot depth text L) :
    Means dot (depth + 1) (['(', '?', ':'] ++ text ++ [')']) L := by
  obtain ⟨es, Ls, hr, hd, rfl⟩ := h
  have hs := Expression.denotes_sequence hd
  have hg := hr.group
  unfold Reads.grouped at hg
  split at hg
  · rename_i he
    subst he
    cases hd
    exact ⟨[], [], hg, .nil, rfl⟩
  · exact of_reads hg hs

theorem either (h : Means dot depth text L) (h' : Means dot depth more M) :
    Means dot (depth + 1) (['(', '?', ':'] ++ text ++ ['|'] ++ more ++ [')']) (L + M) := by
  obtain ⟨es, Ls, hr, hd, rfl⟩ := h
  obtain ⟨fs, Ms, hr', hd', rfl⟩ := h'
  exact of_reads (hr.either hr')
    ((Expression.denotes_sequence hd).alt (Expression.denotes_sequence hd').alone)

theorem anchored (hd : depth + 1 < maxDepth) (h : Means dot depth text L) :
    ∃ source r, Source.read (dotModes dot) (['^', '(', '?', ':'] ++ text ++ [')', '$']) =
        .ok source ∧
      source.expression.regular? source.referred = some r ∧ r.Sound = true ∧
      ∀ subject : Array Char, (∃ i j, i ≤ subject.size ∧ r.Matches subject i j) ↔
        subject.toList ∈ L := by
  obtain ⟨es, Ls, hr, hes, rfl⟩ := h
  have hread := read_of_reads hd (reads_anchored hr)
  by_cases he : es = []
  · subst he
    cases hes
    refine ⟨_, .seq (.anchor .textStart) (.anchor .textEnd), hread, rfl, rfl, fun subject => ?_⟩
    rw [List.prod_nil]
    exact Regular.exists_matches_ends_iff subject
  · obtain ⟨r, hreg, hfree, hsound, hl⟩ := Expression.denotes_sequence hes
    rw [Reads.grouped, if_neg he] at hread
    refine ⟨_, r.whole, hread, Expression.regular?_whole hreg, ?_, fun subject => ?_⟩
    · simp [Regular.whole, Regular.Sound, hsound]
    · rw [← hl]
      exact Regular.exists_matches_whole_iff hfree subject

end Means

end AnswerGrading.Regex
