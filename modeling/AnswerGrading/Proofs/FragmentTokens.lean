import AnswerGrading.Proofs.FragmentPasses
import Mathlib.Data.List.Basic

/-!
Literal fragments and their tokens. The passes, run over each other's output, turn every token into a
pattern of its own.
-/

namespace AnswerGrading.Fragment

def metacharacters : List Char :=
  ['\\', '.', '^', '$', '|', '(', ')', '[', ']', '\x7b', '\x7d', '*', '+', '?']

def escapable : List Char :=
  ['|', '<', '>', ';', ' ']

def Lexeme.Literal : Lexeme → Prop
  | .single c => c ∉ metacharacters
  | .pair c => c ∈ escapable

instance (l : Lexeme) : Decidable l.Literal := by
  cases l <;> unfold Lexeme.Literal <;> infer_instance

def Literal (cs : List Char) : Prop :=
  ∀ l ∈ lexemes cs, l.Literal

instance (cs : List Char) : Decidable (Literal cs) :=
  List.decidableBAll _ _

inductive Token where
  | space
  | semicolon
  | pipe
  | redirect (c : Char) (doubled : Bool)
  | exact (c : Char)
  deriving DecidableEq, Repr

namespace Token

def ofSingle : Char → Token
  | ' ' => .space
  | ';' => .semicolon
  | '<' => .redirect '<' false
  | '>' => .redirect '>' false
  | c => .exact c

def ofPair : Char → Token
  | '|' => .pipe
  | c => .exact c

end Token

/-- A doubled angle bracket is taken before a single one. -/
def tokens : List Lexeme → List Token
  | [] => []
  | .single '<' :: .single '<' :: ls => .redirect '<' true :: tokens ls
  | .single '>' :: .single '>' :: ls => .redirect '>' true :: tokens ls
  | .single c :: ls => .ofSingle c :: tokens ls
  | .pair c :: ls => .ofPair c :: tokens ls

namespace Token

def draft (fs : Flags) : Token → List Char
  | .space => if fs.infiniteSpace then spaceRun else [' ']
  | .semicolon => if fs.pipeSpace then semicolonGroup else [';']
  | .pipe => if fs.pipeSpace then pipeGroup else ['\\', '|']
  | .redirect c doubled =>
      if fs.redirectSpace then redirectGroup c doubled else if doubled then [c, c] else [c]
  | .exact c => if c ∈ escapable then ['\\', c] else [c]

def pattern (fs : Flags) : Token → List Char
  | .exact c => if c ∈ [' ', ';', '/'] then ['\\', c] else [c]
  | t => t.draft fs

def Proper : Token → Prop
  | .redirect c _ => isRedirect c = true
  | .exact c => c ∉ metacharacters
  | _ => True

theorem proper_ofSingle {c : Char} (h : c ∉ metacharacters) : (ofSingle c).Proper := by
  unfold ofSingle
  split
  · trivial
  · trivial
  · rfl
  · rfl
  · exact h

theorem proper_ofPair {c : Char} (h : c ∈ escapable) : (ofPair c).Proper := by
  simp only [escapable, List.mem_cons, List.not_mem_nil, or_false] at h
  rcases h with rfl | rfl | rfl | rfl | rfl <;> simp [ofPair, Proper, metacharacters]

end Token

theorem proper_of_mem_tokens {ls : List Lexeme} (h : ∀ l ∈ ls, l.Literal) {t : Token}
    (ht : t ∈ tokens ls) : t.Proper := by
  fun_induction tokens ls with
  | case1 => cases ht
  | case2 ls ih =>
      rcases List.mem_cons.1 ht with rfl | ht
      · rfl
      · exact ih (fun l hl => h l (by simp [hl])) ht
  | case3 ls ih =>
      rcases List.mem_cons.1 ht with rfl | ht
      · rfl
      · exact ih (fun l hl => h l (by simp [hl])) ht
  | case4 c ls _ _ ih =>
      rcases List.mem_cons.1 ht with rfl | ht
      · exact Token.proper_ofSingle (h _ (List.mem_cons_self ..))
      · exact ih (fun l hl => h l (List.mem_cons_of_mem _ hl)) ht
  | case5 c ls ih =>
      rcases List.mem_cons.1 ht with rfl | ht
      · exact Token.proper_ofPair (h _ (List.mem_cons_self ..))
      · exact ih (fun l hl => h l (List.mem_cons_of_mem _ hl)) ht

def chunk (fs : Flags) : Lexeme → List Char
  | .single ' ' => if fs.infiniteSpace then spaceRun else [' ']
  | .single ';' => if fs.pipeSpace then semicolonGroup else [';']
  | .pair '|' => if fs.pipeSpace then pipeGroup else ['\\', '|']
  | l => l.text

theorem Lexeme.Literal.ne_backslash {l : Lexeme} (h : l.Literal) : l ≠ .single '\\' := by
  rintro rfl
  exact h (by simp [metacharacters])

theorem endsLone_spaced {fs : Flags} {l : Lexeme} (h : l.Literal) :
    endsLone (if fs.infiniteSpace then l.expandSpace else l.text) = false := by
  split
  · unfold Lexeme.expandSpace
    split
    · decide
    · exact endsLone_text h.ne_backslash
  · exact endsLone_text h.ne_backslash

theorem expandPipes_text (l : Lexeme) : expandPipes l.text = l.expandPipe := by
  cases l with
  | pair c => simp [expandPipes, Lexeme.text, lexemes]
  | single c => simp [expandPipes, Lexeme.text, lexemes]

theorem expandSpace_eq_text {l : Lexeme} (h : l ≠ .single ' ') : l.expandSpace = l.text := by
  unfold Lexeme.expandSpace
  split
  · exact absurd rfl h
  · rfl

theorem expandPipe_eq_text {l : Lexeme} (hp : l ≠ .pair '|') (hs : l ≠ .single ';') :
    l.expandPipe = l.text := by
  unfold Lexeme.expandPipe
  split
  · exact absurd rfl hp
  · exact absurd rfl hs
  · rfl

theorem passes_lexeme (fs : Flags) {l : Lexeme} (h : l.Literal) :
    passIf fs.pipeSpace expandPipes (if fs.infiniteSpace then l.expandSpace else l.text) =
      chunk fs l := by
  unfold passIf
  by_cases hspace : l = .single ' '
  · subst hspace
    unfold chunk
    split <;> split <;> rfl
  · rw [expandSpace_eq_text hspace, ite_self, expandPipes_text]
    by_cases hsemicolon : l = .single ';'
    · subst hsemicolon
      rfl
    · by_cases hpipe : l = .pair '|'
      · subst hpipe
        rfl
      · rw [expandPipe_eq_text hpipe hsemicolon, ite_self]
        unfold chunk
        split <;> first | rfl | contradiction

theorem passIf_expandPipes_flatMap {α : Type} {on : Bool} {f : α → List Char} {xs : List α}
    (h : ∀ x ∈ xs, endsLone (f x) = false) :
    passIf on expandPipes (xs.flatMap f) = xs.flatMap fun x => passIf on expandPipes (f x) := by
  cases on with
  | false => rfl
  | true => exact expandPipes_flatMap h

theorem passes_eq_flatMap (fs : Flags) {cs : List Char} (h : Literal cs) :
    passIf fs.pipeSpace expandPipes (passIf fs.infiniteSpace expandSpaces cs) =
      (lexemes cs).flatMap (chunk fs) := by
  have hspaces : passIf fs.infiniteSpace expandSpaces cs =
      (lexemes cs).flatMap fun l => if fs.infiniteSpace then l.expandSpace else l.text := by
    unfold passIf
    split
    · rfl
    · exact (flatMap_text_lexemes cs).symm
  have hlone : ∀ l ∈ lexemes cs,
      endsLone (if fs.infiniteSpace then l.expandSpace else l.text) = false :=
    fun l hl => endsLone_spaced (h l hl)
  rw [hspaces, passIf_expandPipes_flatMap hlone]
  exact List.flatMap_congr fun l hl => passes_lexeme fs (h l hl)

theorem expandFrom_chunk (fs : Flags) {l : Lexeme} (h : l.Literal)
    (hr : ∀ c, isRedirect c = true → l ≠ .single c) (cs : List Char) :
    expandFrom .none (chunk fs l ++ cs) = chunk fs l ++ expandFrom .none cs := by
  have hspace := expandFrom_single (c := ' ') (by decide) (by decide) rfl
  have hsemicolon := expandFrom_single (c := ';') (by decide) (by decide) rfl
  unfold chunk
  split
  · split
    · exact expandFrom_spaceRun cs
    · exact hspace cs
  · split
    · exact expandFrom_semicolonGroup cs
    · exact hsemicolon cs
  · split
    · exact expandFrom_pipeGroup cs
    · exact expandFrom_pair '|' cs
  · cases l with
    | pair c => exact expandFrom_pair c cs
    | single c =>
        have hb : c ≠ '\\' := fun hc => h.ne_backslash (hc ▸ rfl)
        have ho : c ≠ '(' := fun hc => h (by simp [hc, metacharacters])
        exact expandFrom_single hb ho (by simpa using fun hc => hr c hc rfl) cs

theorem eq_or_eq_of_isRedirect {c : Char} (h : isRedirect c = true) : c = '<' ∨ c = '>' := by
  simpa [isRedirect] using h

theorem head?_chunk (fs : Flags) (l : Lexeme) {c : Char} (hc : isRedirect c = true)
    (hl : l ≠ .single c) (cs : List Char) : (chunk fs l ++ cs).head? ≠ some c := by
  have hne {d : Char} (hd : isRedirect d = false) : d ≠ c := by
    rintro rfl
    exact absurd (hc.symm.trans hd) (by decide)
  unfold chunk
  split
  · split <;> simpa [spaceRun] using hne rfl
  · split <;> simpa [semicolonGroup, spacedGroup] using hne rfl
  · split <;> simpa [pipeGroup, spacedGroup] using hne rfl
  · cases l with
    | pair d => simpa [Lexeme.text] using hne rfl
    | single d => simpa [Lexeme.text] using fun hd : d = c => hl (hd ▸ rfl)

theorem head?_flatMap_chunk {fs : Flags} {ls : List Lexeme} {c : Char} (hc : isRedirect c = true)
    (hl : ∀ ls', ls ≠ .single c :: ls') : (ls.flatMap (chunk fs)).head? ≠ some c := by
  cases ls with
  | nil => simp
  | cons l ls => exact head?_chunk fs l hc (fun h => hl ls (h ▸ rfl)) _

def redirects (fs : Flags) (cs : List Char) : List Char :=
  passIf fs.redirectSpace expandRedirects cs

theorem redirects_chunk (fs : Flags) {l : Lexeme} (h : l.Literal)
    (hr : ∀ c, isRedirect c = true → l ≠ .single c) (cs : List Char) :
    redirects fs (chunk fs l ++ cs) = chunk fs l ++ redirects fs cs := by
  unfold redirects passIf
  split
  · exact expandFrom_chunk fs h hr cs
  · rfl

theorem redirects_doubled (fs : Flags) {c : Char} (hc : isRedirect c = true) (cs : List Char) :
    redirects fs (c :: c :: cs) = (Token.redirect c true).draft fs ++ redirects fs cs := by
  unfold redirects passIf Token.draft
  split
  · exact expandFrom_doubled hc cs
  · rfl

theorem redirects_single (fs : Flags) {c : Char} (hc : isRedirect c = true) {cs : List Char}
    (hd : cs.head? ≠ some c) :
    redirects fs (c :: cs) = (Token.redirect c false).draft fs ++ redirects fs cs := by
  unfold redirects passIf Token.draft
  split
  · exact expandFrom_redirect hc hd
  · rfl

theorem chunk_single (fs : Flags) {c : Char} (h : c ∉ metacharacters)
    (hr : isRedirect c = false) : chunk fs (.single c) = (Token.ofSingle c).draft fs := by
  unfold Token.ofSingle
  split
  · rfl
  · rfl
  · cases hr
  · cases hr
  · rename_i hspace hsemicolon hless hmore
    have hbar : c ≠ '|' := fun hc => h (by simp [hc, metacharacters])
    have hn : c ∉ escapable := by
      simp only [escapable, List.mem_cons, List.not_mem_nil, or_false, not_or]
      exact ⟨hbar, hless, hmore, hsemicolon, hspace⟩
    have hchunk : chunk fs (.single c) = [c] := by
      unfold chunk
      split
      · rename_i he
        exact (hspace (Lexeme.single.inj he)).elim
      · rename_i he
        exact (hsemicolon (Lexeme.single.inj he)).elim
      · contradiction
      · rfl
    rw [hchunk, Token.draft, if_neg hn]

theorem chunk_pair (fs : Flags) {c : Char} (h : c ∈ escapable) :
    chunk fs (.pair c) = (Token.ofPair c).draft fs := by
  simp only [escapable, List.mem_cons, List.not_mem_nil, or_false] at h
  rcases h with rfl | rfl | rfl | rfl | rfl <;> rfl

theorem redirects_flatMap (fs : Flags) {ls : List Lexeme} (h : ∀ l ∈ ls, l.Literal) :
    redirects fs (ls.flatMap (chunk fs)) = (tokens ls).flatMap (Token.draft fs) := by
  fun_induction tokens ls with
  | case1 => exact ite_self _
  | case2 ls ih =>
      have hls := ih fun l hl => h l (by simp [hl])
      simp only [List.flatMap_cons]
      rw [← hls]
      exact redirects_doubled fs rfl _
  | case3 ls ih =>
      have hls := ih fun l hl => h l (by simp [hl])
      simp only [List.flatMap_cons]
      rw [← hls]
      exact redirects_doubled fs rfl _
  | case4 c ls hless hmore ih =>
      have hls := ih fun l hl => h l (List.mem_cons_of_mem _ hl)
      have hc := h _ (List.mem_cons_self ..)
      simp only [List.flatMap_cons]
      rw [← hls]
      by_cases hr : isRedirect c = true
      -- not doubled in the lexemes, hence not in the text: no other chunk starts with the bracket
      · rcases eq_or_eq_of_isRedirect hr with rfl | rfl
        · exact redirects_single fs rfl
            (head?_flatMap_chunk rfl fun ls' hls' => hless ls' hls' rfl)
        · exact redirects_single fs rfl
            (head?_flatMap_chunk rfl fun ls' hls' => hmore ls' hls' rfl)
      · rw [← chunk_single fs hc (by simpa using hr)]
        refine redirects_chunk fs hc (fun d hd he => hr ?_) _
        cases he
        exact hd
  | case5 c ls ih =>
      have hls := ih fun l hl => h l (List.mem_cons_of_mem _ hl)
      have hc := h _ (List.mem_cons_self ..)
      simp only [List.flatMap_cons]
      rw [← hls, ← chunk_pair fs hc]
      exact redirects_chunk fs hc (fun d _ he => nomatch he) _

theorem endsLone_draft {fs : Flags} {t : Token} (h : t.Proper) : endsLone (t.draft fs) = false := by
  cases t with
  | space =>
      rw [Token.draft]
      split <;> rfl
  | semicolon =>
      rw [Token.draft]
      split <;> rfl
  | pipe =>
      rw [Token.draft]
      split <;> rfl
  | redirect c doubled =>
      rw [Token.draft]
      rcases eq_or_eq_of_isRedirect h with rfl | rfl <;> cases doubled <;> split <;> rfl
  | exact c =>
      rw [Token.draft]
      split
      · rfl
      · refine endsLone_text (l := .single c) fun hc => h ?_
        rw [Lexeme.single.inj hc]
        exact List.mem_cons_self ..

theorem normalizeEscapes_single {c : Char} (h : c ≠ '/') : normalizeEscapes [c] = [c] := by
  have hn : Lexeme.normalize (.single c) = [c] := by
    unfold Lexeme.normalize
    split
    · contradiction
    · contradiction
    · rename_i he
      exact (h (Lexeme.single.inj he)).elim
    · rfl
  rw [normalizeEscapes, lexemes, List.flatMap_singleton, hn]

theorem normalizeEscapes_draft (fs : Flags) {t : Token} (h : t.Proper) :
    normalizeEscapes (t.draft fs) = t.pattern fs := by
  cases t with
  | space =>
      simp only [Token.pattern, Token.draft]
      split <;> rfl
  | semicolon =>
      simp only [Token.pattern, Token.draft]
      split <;> rfl
  | pipe =>
      simp only [Token.pattern, Token.draft]
      split <;> rfl
  | redirect c doubled =>
      simp only [Token.pattern, Token.draft]
      rcases eq_or_eq_of_isRedirect h with rfl | rfl <;> cases doubled <;> split <;> rfl
  | exact c =>
      by_cases hc : c ∈ escapable
      · simp only [escapable, List.mem_cons, List.not_mem_nil, or_false] at hc
        rcases hc with rfl | rfl | rfl | rfl | rfl
        · exact absurd h (by simp [Token.Proper, metacharacters])
        · rfl
        · rfl
        · rfl
        · rfl
      · by_cases hslash : c = '/'
        · subst hslash
          rfl
        · have hn : c ∉ [' ', ';', '/'] := by
            simp only [escapable, List.mem_cons, List.not_mem_nil, or_false, not_or] at hc ⊢
            exact ⟨hc.2.2.2.2, hc.2.2.2.1, hslash⟩
          rw [Token.draft, if_neg hc, Token.pattern, if_neg hn, normalizeEscapes_single hslash]

theorem body_eq_flatMap (fs : Flags) {cs : List Char} (h : Literal cs) :
    body fs cs = (tokens (lexemes cs)).flatMap (Token.pattern fs) := by
  have hproper : ∀ t ∈ tokens (lexemes cs), t.Proper := fun t ht => proper_of_mem_tokens h ht
  rw [body, passes_eq_flatMap fs h, ← redirects, redirects_flatMap fs h,
    normalizeEscapes_flatMap fun t ht => endsLone_draft (hproper t ht)]
  exact List.flatMap_congr fun t ht => normalizeEscapes_draft fs (hproper t ht)

end AnswerGrading.Fragment
