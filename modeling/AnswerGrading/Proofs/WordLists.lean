import AnswerGrading.Proofs.ConsistentScoring
import AnswerGrading.Proofs.FloatRounding
import AnswerGrading.Proofs.PlainFragment
import AnswerGrading.Proofs.PreparedAnswers
import AnswerGrading.Proofs.Sections

namespace AnswerGrading

section Greedy

variable {α β γ : Type} {accepts accepts' : α → β → Bool} {fs : List α}

theorem leftOver_congr (h : ∀ f ∈ fs, accepts f = accepts' f) (pieces : List β) :
    leftOver accepts fs pieces = leftOver accepts' fs pieces := by
  induction fs generalizing pieces with
  | nil => rfl
  | cons f fs ih =>
      rw [leftOver, leftOver, h f (List.mem_cons_self ..)]
      exact ih (fun g hg => h g (List.mem_cons_of_mem f hg)) _

theorem leftOver_map (accepts : α → β → Bool) (g : γ → β) (fs : List α) (xs : List γ) :
    leftOver accepts fs (xs.map g) = (leftOver (fun f x => accepts f (g x)) fs xs).map g := by
  induction fs generalizing xs with
  | nil => rfl
  | cons f fs ih =>
      rw [leftOver, leftOver, List.eraseP_map]
      exact ih _

variable [DecidableEq α]

theorem leftOver_eq_diff (fs xs : List α) :
    leftOver (fun f x => decide (x = f)) fs xs = xs.diff fs := by
  induction fs generalizing xs with
  | nil => rfl
  | cons f fs ih =>
      have herase : xs.eraseP (fun x => decide (x = f)) = xs.erase f := by
        rw [List.erase_eq_eraseP]
        congr 1
        funext x
        rw [Bool.eq_iff_iff, decide_eq_true_iff, beq_iff_eq, eq_comm]
      rw [leftOver, herase, ih, List.diff_cons]

def shared (ws vs : List α) : Nat :=
  ((ws : Multiset α) ∩ vs).card

theorem length_diff (ws vs : List α) : (vs.diff ws).length + shared ws vs = vs.length := by
  have hsum := congrArg Multiset.card (Multiset.sub_add_inter (vs : Multiset α) ws)
  rw [Multiset.card_add, Multiset.coe_sub, Multiset.coe_card, Multiset.coe_card,
    Multiset.inter_comm] at hsum
  exact hsum

theorem shared_le (ws vs : List α) : shared ws vs ≤ ws.length :=
  Multiset.card_le_card Multiset.inter_le_left

theorem shared_eq_length_iff {ws vs : List α} (h : vs.length = ws.length) :
    shared ws vs = ws.length ↔ vs.Perm ws := by
  constructor
  · intro hs
    have hinter : (ws : Multiset α) ∩ vs = ws :=
      Multiset.eq_of_le_of_card_le Multiset.inter_le_left hs.ge
    have hle : (ws : Multiset α) ≤ vs := hinter ▸ Multiset.inter_le_right
    have heq := Multiset.eq_of_le_of_card_le hle (by simpa using h.le)
    exact (Multiset.coe_eq_coe.1 heq).symm
  · intro hp
    rw [shared, Multiset.coe_eq_coe.2 hp, ← Multiset.inf_eq_inter, inf_idem, Multiset.coe_card]

theorem credit_shared_eq_iff {ws vs : List α} (hws : ws ≠ []) :
    credit ws.length vs.length (shared ws vs) = ws.length ↔ vs.Perm ws := by
  have hle : shared ws vs ≤ vs.length := by
    have := length_diff ws vs
    omega
  rw [credit_eq_iff (List.length_pos_iff.2 hws) (shared_le ws vs) hle]
  constructor
  · rintro ⟨hlength, hshared⟩
    exact (shared_eq_length_iff hlength).1 hshared
  · intro hp
    exact ⟨hp.length_eq, (shared_eq_length_iff hp.length_eq).2 hp⟩

end Greedy

structure IsWord (w : String) : Prop where
  ne_empty : w ≠ ""
  plain : Fragment.Plain w.toList

/-- One line, with no space or tab at either end. -/
structure IsLine (v : String) : Prop where
  ne_empty : v ≠ ""
  noReturn : '\r' ∉ v.toList
  noNewline : '\n' ∉ v.toList
  noGapStart : ∀ c ∈ v.toList.head?, Text.isGap c = false
  noGapEnd : ∀ c ∈ v.toList.getLast?, Text.isGap c = false

instance (w : String) : Decidable (IsWord w) :=
  decidable_of_iff (w ≠ "" ∧ Fragment.Plain w.toList)
    ⟨fun ⟨hne, hp⟩ => ⟨hne, hp⟩, fun ⟨hne, hp⟩ => ⟨hne, hp⟩⟩

instance (v : String) : Decidable (IsLine v) :=
  decidable_of_iff (v ≠ "" ∧ '\r' ∉ v.toList ∧ '\n' ∉ v.toList ∧
      v.toList.head?.all (!Text.isGap ·) = true ∧ v.toList.getLast?.all (!Text.isGap ·) = true) <| by
    simp only [Option.all_eq_true, Bool.not_eq_true']
    exact ⟨fun ⟨hne, hr, hn, hs, he⟩ => ⟨hne, hr, hn, hs, he⟩,
      fun ⟨hne, hr, hn, hs, he⟩ => ⟨hne, hr, hn, hs, he⟩⟩

section Parsing

theorem Holds.closing_mem {shape : List Char → Prop} {cs : List Char} (h : Holds shape cs) :
    ']' ∈ cs := by
  obtain ⟨before, tail, after, -, rfl⟩ := h
  simp [closing]

namespace Fragment.Plain

variable {cs : List Char}

theorem closing_not_mem (h : Plain cs) : ']' ∉ cs := by
  intro hm
  exact (h _ hm).2 (by decide)

theorem return_not_mem (h : Plain cs) : '\r' ∉ cs := by
  intro hm
  exact absurd (h _ hm).1 (by decide)

end Fragment.Plain

def wordLetters : List Char :=
  ['D', 'd', 'S', 's', 'T', 't']

def wordFlags (letters : List Char) : Flags :=
  .ofOptions ('O' :: letters)

theorem Flags.get_foldl_applyOption {f : Flag} {cs : List Char}
    (h : ∀ c ∈ cs, Flag.ofLetter? c.toUpper ≠ some f) (fs : Flags) :
    (cs.foldl applyOption fs).get f = fs.get f := by
  induction cs generalizing fs with
  | nil => rfl
  | cons c cs ih =>
      rw [List.foldl_cons, ih fun d hd => h d (List.mem_cons_of_mem c hd), applyOption, option?]
      cases hc : Flag.ofLetter? c.toUpper with
      | none => rfl
      | some g =>
          have hg : g ≠ f := by
            rintro rfl
            exact h c (List.mem_cons_self ..) hc
          rw [Option.map_some, Option.getD_some, get_set, if_neg hg]

theorem ofLetter?_toUpper_of_mem {c : Char} (h : c ∈ wordLetters) :
    Flag.ofLetter? c.toUpper ∈ [some .dotAll, some .infiniteSpace, some .trimSpaces] := by
  simp only [wordLetters, List.mem_cons, List.not_mem_nil, or_false] at h
  rcases h with rfl | rfl | rfl | rfl | rfl | rfl <;> decide

theorem get_wordFlags {letters : List Char} (h : letters ⊆ wordLetters) {f : Flag}
    (hf : some f ∉ [some .dotAll, some .infiniteSpace, some .trimSpaces]) :
    (wordFlags letters).get f = (Flags.ofOptions ['O']).get f := by
  have hother : ∀ c ∈ letters, Flag.ofLetter? c.toUpper ≠ some f := by
    intro c hc he
    exact hf (he ▸ ofLetter?_toUpper_of_mem (h hc))
  exact Flags.get_foldl_applyOption hother _

/-- `[[w]]` for each word, with spaces between, and the any-order option before the letters. -/
def wordsText (ws : List String) (letters : List Char) : String :=
  .ofList (enclosed (ws.map String.toList) ++ '/' :: ('O' :: letters ++ ['/']))

def wordsSpecification (w : String) (ws : List String) (letters : List Char) : Specification where
  first := w
  others := ws
  flags := wordFlags letters

theorem parse_wordsText {w : String} {ws : List String} (hwords : ∀ x ∈ w :: ws, IsWord x)
    {letters : List Char} (hletters : letters ⊆ wordLetters) :
    Specification.parse (wordsText (w :: ws) letters) = wordsSpecification w ws letters := by
  have hplain : ∀ f ∈ w.toList :: ws.map String.toList, Fragment.Plain f :=
    List.forall_mem_map (f := String.toList) (P := Fragment.Plain) |>.2
      fun x hx => (hwords x hx).plain
  have halpha : Letters ('O' :: letters) := by
    intro c hc
    rcases List.mem_cons.1 hc with rfl | hc
    · decide
    · exact List.all_eq_true.1 (by decide : wordLetters.all Char.isAlpha = true) c (hletters hc)
  have hlast : ∀ c ∈ ((w.toList :: ws.map String.toList).getLast
      (List.cons_ne_nil _ _)).getLast?, Unicode.isSpace c = false := by
    intro c hc
    exact (hplain _ (List.getLast_mem _) c (List.mem_of_getLast? hc)).1
  have hcut := current?_enclosed (fun f hf hm => (hplain f hf).closing_not_mem hm.closing_mem)
    (fun f hf hg => (hplain f hf).closing_not_mem hg.closing_mem) hlast halpha []
  have hreturn : '\r' ∉ (wordsText (w :: ws) letters).toList := by
    have hfirst := (hplain _ (List.mem_cons_self ..)).return_not_mem
    have hothers := return_not_mem_gapped fun f hf =>
      (hplain f (List.mem_cons_of_mem _ hf)).return_not_mem
    have hmarker : '\r' ∉ letters := fun hm => absurd (hletters hm) (by decide)
    simp [wordsText, enclosed_cons, hfirst, hothers, hmarker]
  apply Specification.parse_of_current
  rw [Specification.inForm, Sections.inForm?, Text.withoutReturns_eq_self hreturn]
  have htext : (wordsText (w :: ws) letters).toList =
      enclosed (w.toList :: ws.map String.toList) ++ '/' :: ('O' :: letters ++ '/' :: []) := by
    simp [wordsText]
  have hblock : SettingLine.readAll [] = [] := by decide
  rw [htext, hcut]
  simp [Specification.ofSections, Specification.applyAll, Specification.flagsOf, hblock,
    wordsSpecification, wordFlags, Function.comp_def]

end Parsing

section Answers

namespace IsLine

variable {v : String}

theorem trimIf_eq_self (h : IsLine v) (trims : Bool) :
    Answer.trimIf trims v.toList = v.toList := by
  cases trims with
  | false => rfl
  | true =>
      have hstart := h.noGapStart
      have hend := h.noGapEnd
      cases hv : v.toList with
      | nil => rfl
      | cons c cs =>
          rw [hv] at hstart hend
          exact Text.trimBy_eq_self (hstart c rfl) hend

theorem not_isBlank (h : IsLine v) : ¬Text.isBlank v.toList = true := by
  have hstart := h.noGapStart
  cases hv : v.toList with
  | nil => exact absurd (String.toList_eq_nil_iff.1 hv) h.ne_empty
  | cons c cs =>
      rw [hv] at hstart
      simp [Text.isBlank, hstart c rfl]

end IsLine

def linesText (vs : List String) : String :=
  "\n".intercalate vs

theorem answerPieces_linesText {b : Specification} (hb : b.separator = "\n") {vs : List String}
    (hvs : vs ≠ []) (h : ∀ v ∈ vs, IsLine v) :
    b.answerPieces (linesText vs) = vs.map String.toList := by
  have htext : (linesText vs).toList = Text.unlines (vs.map String.toList) :=
    String.toList_intercalate
  have hlines : Text.lines (Text.unlines (vs.map String.toList)) = vs.map String.toList :=
    Text.lines_unlines (by simpa using hvs) (List.forall_mem_map.2 fun v hv => (h v hv).noNewline)
  have hreturns : (vs.map String.toList).map Text.withoutReturns = vs.map String.toList := by
    rw [List.map_map]
    exact List.map_congr_left fun v hv => Text.withoutReturns_eq_self (h v hv).noReturn
  have hkept : Answer.keptLines b.flags.trimSpaces (vs.map String.toList) =
      vs.map String.toList :=
    Answer.keptLines_eq_self (List.forall_mem_map.2 fun v hv => (h v hv).trimIf_eq_self _)
      (List.forall_mem_map.2 fun v hv => (h v hv).not_isBlank)
  have hseparator : (if b.separator = "" then ['\n'] else b.separator.toList) = ['\n'] := by
    rw [hb]
    rfl
  rw [Specification.answerPieces, Specification.pieces, hseparator, Text.splitAt_newline,
    Answer.prepare_eq, htext, hlines, hreturns, hkept, hlines]

end Answers

theorem taken_words {accepts : Pattern → String → Bool} {flags : Flags} {ws : List String}
    (h : ∀ w ∈ ws, ∀ subject, accepts (Fragment.synthesize w flags) subject = decide (subject = w))
    (vs : List String) :
    taken (fits accepts flags) ws (vs.map String.toList) = shared ws vs := by
  have hfits : ∀ w ∈ ws, (fun v : String => fits accepts flags w v.toList) =
      fun v => decide (v = w) := by
    intro w hw
    funext v
    rw [fits, h w hw, String.ofList_toList]
  have hleft : leftOver (fits accepts flags) ws (vs.map String.toList) =
      (vs.diff ws).map String.toList := by
    rw [leftOver_map, leftOver_congr hfits, leftOver_eq_diff]
  have hlength := length_diff ws vs
  rw [taken, hleft, List.length_map, List.length_map]
  omega

section Scoring

variable {σ : Type} {e : Engine σ} {known : σ → Prop}
  {answers : Pattern → String → Except PatternError Bool} {s : σ} {letters : List Char}
  {ws : List String}

theorem anchors_word {w : String} (hw : IsWord w) (hletters : letters ⊆ wordLetters) :
    (Fragment.synthesize w (wordFlags letters)).Anchors {w.toList} := by
  apply hw.plain.anchors
  · exact get_wordFlags (f := .ignoreCase) hletters (by decide)
  · exact get_wordFlags (f := .pipeSpace) hletters (by decide)
  · exact get_wordFlags (f := .redirectSpace) hletters (by decide)

/-- An error counts as a refusal. -/
def accepted (answers : Pattern → String → Except PatternError Bool) (p : Pattern)
    (subject : String) : Bool :=
  (answers p subject).toOption.getD false

theorem accepted_of_ok {p : Pattern} {subject : String} {b : Bool}
    (h : answers p subject = .ok b) : accepted answers p subject = b := by
  rw [accepted, h]
  rfl

theorem handOut_words (h : e.Consistent known answers) (hs : known s) {flags : Flags}
    (hanswers : ∀ w ∈ ws, ∀ subject,
      answers (Fragment.synthesize w flags) subject = .ok (decide (subject = w)))
    (vs : List String) :
    ∃ left, (e.handOut flags s ws (vs.map String.toList)).1 = .ok left ∧
      anyOrderPoints ws.length vs.length left.length =
        credit ws.length vs.length (shared ws vs) := by
  have haccepted : ∀ w ∈ ws, ∀ subject, answers (Fragment.synthesize w flags) subject =
      .ok (accepted answers (Fragment.synthesize w flags) subject) := by
    intro w hw subject
    rw [accepted_of_ok (hanswers w hw subject), hanswers w hw]
  have hpoints := anyOrderPoints_leftOver (fits (accepted answers) flags) ws
    (vs.map String.toList)
  rw [taken_words fun w hw subject => accepted_of_ok (hanswers w hw subject),
    List.length_map] at hpoints
  exact ⟨_, h.handOut_eq_leftOver hs haccepted, hpoints⟩

theorem score_words (h : e.Consistent known answers) (hs : known s) {w : String} {vs : List String}
    (hwords : ∀ x ∈ w :: ws, IsWord x) (hvs : vs ≠ []) (hlines : ∀ v ∈ vs, IsLine v)
    (hletters : letters ⊆ wordLetters)
    (hu : ∀ x ∈ w :: ws, e.Understands s (Fragment.synthesize x (wordFlags letters))) :
    ((wordsSpecification w ws letters).score e s (linesText vs)).1 =
      .ok (Float.ofInt (credit (w :: ws).length vs.length (shared (w :: ws) vs)) /
        Float.ofNat (w :: ws).length) := by
  have hanswers : ∀ x ∈ w :: ws, ∀ subject,
      answers (Fragment.synthesize x (wordFlags letters)) subject = .ok (decide (subject = x)) := by
    intro x hx subject
    rw [← h.answer hs]
    exact (hu x hx).answer_eq (anchors_word (hwords x hx) hletters) subject
  have hpieces : (wordsSpecification w ws letters).answerPieces (linesText vs) =
      vs.map String.toList := answerPieces_linesText rfl hvs hlines
  have ho : (wordsSpecification w ws letters).flags.anyOrder = true :=
    get_wordFlags (f := .anyOrder) hletters (by decide)
  have hd : (wordsSpecification w ws letters).isDegenerate = false := by
    simp [Specification.isDegenerate, wordsSpecification,
      (hwords w (List.mem_cons_self ..)).ne_empty]
  obtain ⟨left, hleft, hpoints⟩ :=
    handOut_words h hs hanswers vs
  rw [← hpieces] at hleft
  have hscore := Specification.score_of_handOut ho hleft
  rw [hd, hpieces, List.length_map] at hscore
  rw [hscore, ← hpoints]
  rfl

/-- Words put in any order, and lines against them. The score is the number of words that the lines
hold, less one for each line in excess, over the number of words; it is one exactly for the words
themselves in some order. The regex engine gives it unless a word is too long to be compiled. -/
theorem score_wordsText {ws vs : List String} (hws : ws ≠ []) (hwords : ∀ w ∈ ws, IsWord w)
    (hvs : vs ≠ []) (hlines : ∀ v ∈ vs, IsLine v) {letters : List Char}
    (hletters : letters ⊆ wordLetters) :
    let b := Specification.parse (wordsText ws letters)
    let common : Int := ((ws : Multiset String) ∩ vs).card
    let k : Int := max 0 (common - max 0 ((vs.length : Int) - ws.length))
    let share := Float.ofInt k / Float.ofNat ws.length
    (∀ (σ : Type) (e : Engine σ) (known : σ → Prop)
      (answers : Pattern → String → Except PatternError Bool) (s : σ),
      e.Consistent known answers → known s →
      (∀ w ∈ ws, e.Understands s (Fragment.synthesize w b.flags)) →
      (b.score e s (linesText vs)).1 = .ok share) ∧
    (∀ c : Cache, c.Faithful →
      (∃ w ∈ ws, (Fragment.synthesize w b.flags).compile = .error .tooLarge) ∨
        (b.score Engine.regex c (linesText vs)).1 = .ok share) ∧
    (k = ws.length ↔ vs.Perm ws) ∧
    (ws.length < 2 ^ 53 → (share = 1.0 ↔ vs.Perm ws)) := by
  intro b common k share
  have hfull : k = ws.length ↔ vs.Perm ws := credit_shared_eq_iff hws
  obtain ⟨w, rest, rfl⟩ := List.exists_cons_of_ne_nil hws
  have hb : b = wordsSpecification w rest letters := parse_wordsText hwords hletters
  have hscore : ∀ (σ : Type) (e : Engine σ) (known : σ → Prop)
      (answers : Pattern → String → Except PatternError Bool) (s : σ),
      e.Consistent known answers → known s →
      (∀ x ∈ w :: rest, e.Understands s (Fragment.synthesize x b.flags)) →
      (b.score e s (linesText vs)).1 = .ok share := by
    intro σ e known answers s h hs hu
    rw [hb] at hu ⊢
    exact score_words h hs hwords hvs hlines hletters hu
  refine ⟨hscore, ?_, hfull, ?_⟩
  · intro c hc
    by_cases hlarge : ∃ x ∈ w :: rest,
        (Fragment.synthesize x b.flags).compile = .error .tooLarge
    · exact .inl hlarge
    · right
      apply hscore Cache Engine.regex Cache.Faithful Pattern.matches c Engine.consistent_regex hc
      intro x hx
      rw [hb] at hlarge ⊢
      rcases (anchors_word (hwords x hx) hletters).compile_cases with hx' | ⟨program, hx'⟩
      · exact absurd ⟨x, hx, hx'⟩ hlarge
      · exact Engine.regex_understands hc hx'
  · intro hlt
    rw [← hfull]
    exact FloatBits.ofInt_div_eq_one_iff (credit_nonneg _ _ _) (credit_le (shared_le _ _))
      (Nat.succ_pos _) hlt

def repeatedWords : List String :=
  ["to", "be/", "to", "<;>"]

theorem score_wordsText_repeatedWords :
    let b := Specification.parse (wordsText repeatedWords ['d', 'T', 't', 'S'])
    (∀ w ∈ repeatedWords, IsWord w) ∧ (∀ v ∈ ["be/", "to", "or not", "be/", "to"], IsLine v) ∧
    wordsText repeatedWords ['d', 'T', 't', 'S'] = "[[to]] [[be/]] [[to]] [[<;>]]/OdTtS/" ∧
    (b.score Engine.regex {} (linesText ["be/", "to", "or not", "be/", "to"])).1 =
      .ok (Float.ofInt 2 / Float.ofNat 4) ∧
    ["to", "<;>", "to", "be/"].Perm repeatedWords ∧
    (b.score Engine.regex {} (linesText ["to", "<;>", "to", "be/"])).1 = .ok 1.0 := by
  intro b
  have hwords : ∀ w ∈ repeatedWords, IsWord w := by decide +kernel
  have hlines : ∀ v ∈ ["be/", "to", "or not", "be/", "to"], IsLine v := by decide +kernel
  have hlines' : ∀ v ∈ ["to", "<;>", "to", "be/"], IsLine v := by decide +kernel
  have hletters : ['d', 'T', 't', 'S'] ⊆ wordLetters := by decide
  have hperm : ["to", "<;>", "to", "be/"].Perm repeatedWords := by decide
  obtain ⟨-, hregex, -, -⟩ :=
    score_wordsText (List.cons_ne_nil _ _) hwords (List.cons_ne_nil _ _) hlines hletters
  obtain ⟨-, hregex', -, hone⟩ :=
    score_wordsText (List.cons_ne_nil _ _) hwords (List.cons_ne_nil _ _) hlines' hletters
  have hcompile : ¬∃ w ∈ repeatedWords,
      (Fragment.synthesize w b.flags).compile = .error .tooLarge := by
    rintro ⟨w, hw, hlarge⟩
    have hok : ∀ w ∈ repeatedWords,
        (Fragment.synthesize w b.flags).compile.isOk = true := by
      decide +kernel
    have hw := hok w hw
    rw [hlarge] at hw
    cases hw
  refine ⟨hwords, hlines, by decide +kernel, ?_, hperm, ?_⟩
  · exact (hregex {} Cache.faithful_empty).resolve_left hcompile
  · rw [← (hone (by decide)).2 hperm]
    exact (hregex' {} Cache.faithful_empty).resolve_left hcompile

end Scoring

end AnswerGrading
