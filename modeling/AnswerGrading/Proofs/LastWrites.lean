import AnswerGrading.Proofs.Diagnosis
import AnswerGrading.Proofs.OlderForm

/-!
Items that replace what earlier items wrote. Behind a list of them there stands, in every place,
what the last item to write there wrote. Option letters are such items, with the flags as places:
the last letter of a flag decides, and in the older form any one decides.
-/

namespace AnswerGrading

section

variable {α β σ : Type} {write : α → Option β}

def lastWrite? (write : α → Option β) (as : List α) : Option β :=
  as.reverse.findSome? write

theorem lastWrite?_append (as bs : List α) :
    lastWrite? write (as ++ bs) = (lastWrite? write bs).or (lastWrite? write as) := by
  rw [lastWrite?, List.reverse_append, List.findSome?_append]
  rfl

theorem lastWrite?_cons (a : α) (as : List α) :
    lastWrite? write (a :: as) = (lastWrite? write as).or (write a) := by
  rw [lastWrite?, List.reverse_cons, List.findSome?_append, List.findSome?_singleton]
  rfl

theorem lastWrite?_eq_none_iff {as : List α} :
    lastWrite? write as = none ↔ ∀ a ∈ as, write a = none := by
  simp [lastWrite?, List.findSome?_eq_none_iff]

theorem lastWrite?_eq_some_iff {as : List α} {b : β} :
    lastWrite? write as = some b ↔
      ∃ before a after, as = before ++ a :: after ∧ write a = some b ∧
        ∀ c ∈ after, write c = none := by
  rw [lastWrite?, List.findSome?_eq_some_iff]
  constructor
  · rintro ⟨after, a, before, has, hb, hn⟩
    refine ⟨before.reverse, a, after.reverse, ?_, hb, fun c hc => hn c (List.mem_reverse.1 hc)⟩
    rw [← List.reverse_reverse as, has]
    simp
  · rintro ⟨before, a, after, rfl, hb, hn⟩
    exact ⟨after.reverse, a, before.reverse, by simp, hb, fun c hc => hn c (List.mem_reverse.1 hc)⟩

theorem lastWrite?_filter {keep : α → Bool} {as : List α}
    (h : ∀ a ∈ as, keep a = false → write a = none) :
    lastWrite? write (as.filter keep) = lastWrite? write as := by
  induction as with
  | nil => rfl
  | cons a as ih =>
      have has := ih fun b hb => h b (List.mem_cons_of_mem _ hb)
      rw [List.filter_cons, lastWrite?_cons]
      cases ha : keep a with
      | false => simpa [h a (List.mem_cons_self ..) ha] using has
      | true => rw [if_pos rfl, lastWrite?_cons, has]

theorem lastWrite?_delete {before after : List α} {a : α}
    (h : write a = none ∨ ∃ b ∈ after, write b ≠ none) :
    lastWrite? write (before ++ after) = lastWrite? write (before ++ a :: after) := by
  rw [lastWrite?_append, lastWrite?_append, lastWrite?_cons]
  cases hafter : lastWrite? write after with
  | some b => rfl
  | none =>
      rcases h with ha | ⟨b, hb, hw⟩
      · rw [ha]
        rfl
      · exact absurd (lastWrite?_eq_none_iff.1 hafter b hb) hw

/-- If every step leaves in a place what its item writes there, or else what was there, then after a
run there is what the last item wrote, or else what was there before. -/
theorem foldl_lastWrite? {step : σ → α → σ} (place : σ → β)
    (h : ∀ s a, place (step s a) = (write a).getD (place s)) (s : σ) (as : List α) :
    place (as.foldl step s) = (lastWrite? write as).getD (place s) := by
  induction as generalizing s with
  | nil => rfl
  | cons a as ih =>
      rw [List.foldl_cons, ih, h, lastWrite?_cons]
      cases lastWrite? write as <;> rfl

end

def Flag.Owns (f : Flag) (c : Char) : Prop :=
  c = f.letter ∨ c = f.letter.toLower

instance (f : Flag) (c : Char) : Decidable (f.Owns c) :=
  inferInstanceAs (Decidable (_ ∨ _))

namespace Flag

variable {f g : Flag} {c : Char}

theorem ofLetter?_eq_some_iff : ofLetter? c = some f ↔ c = f.letter := by
  constructor
  · exact fun h => (letter_of_ofLetter? h).symm
  · rintro rfl
    exact ofLetter?_letter f

theorem owns_iff : f.Owns c ↔ ofLetter? c.toUpper = some f := by
  rw [ofLetter?_eq_some_iff]
  constructor
  · rintro (rfl | rfl) <;> cases f <;> decide
  · exact eq_of_toUpper

theorem Owns.isUpper (h : f.Owns c) : c.isUpper = decide (c = f.letter) := by
  rcases h with rfl | rfl <;> cases f <;> decide

theorem Owns.toNat_lt (h : f.Owns c) : c.toNat < 128 := by
  rcases h with rfl | rfl <;> cases f <;> decide

def written? (f : Flag) (c : Char) : Option Bool :=
  if f.Owns c then some (decide (c = f.letter)) else none

theorem written?_of_owns (h : f.Owns c) : f.written? c = some (decide (c = f.letter)) :=
  if_pos h

theorem written?_eq_none_iff : f.written? c = none ↔ ¬f.Owns c := by
  unfold written?
  split <;> simp_all

/-- In the older form a letter can only turn its flag from the default. -/
def writtenLegacy? (f : Flag) (c : Char) : Option Bool :=
  if c = f.letter then some (!f.onByDefault) else none

end Flag

namespace Flags

variable {f : Flag}

theorem get_getD_set (fs : Flags) (found : Option Flag) (on : Flag → Bool) :
    ((found.map fun g => fs.set g (on g)).getD fs).get f =
      if found = some f then on f else fs.get f := by
  cases found with
  | none => rfl
  | some g =>
      rw [Option.map_some, Option.getD_some, get_set]
      by_cases h : g = f
      · rw [if_pos h, if_pos (congrArg some h), h]
      · rw [if_neg h, if_neg fun he => h (Option.some.inj he)]

theorem get_applyOption (fs : Flags) (c : Char) :
    (fs.applyOption c).get f = (f.written? c).getD (fs.get f) := by
  rw [applyOption, option?, get_getD_set fs _ fun _ => c.isUpper]
  by_cases h : f.Owns c
  · rw [if_pos (Flag.owns_iff.1 h), Flag.written?_of_owns h, h.isUpper, Option.getD_some]
  · rw [if_neg (mt Flag.owns_iff.2 h), Flag.written?_eq_none_iff.2 h, Option.getD_none]

theorem get_applyLegacyOption (fs : Flags) (c : Char) :
    (fs.applyLegacyOption c).get f = (f.writtenLegacy? c).getD (fs.get f) := by
  rw [applyLegacyOption, legacyOption?, get_getD_set fs _ fun g => !g.onByDefault]
  by_cases h : c = f.letter
  · rw [if_pos (Flag.ofLetter?_eq_some_iff.2 h), Flag.writtenLegacy?, if_pos h, Option.getD_some]
  · rw [if_neg (mt Flag.ofLetter?_eq_some_iff.1 h), Flag.writtenLegacy?, if_neg h, Option.getD_none]

theorem get_ofOptions (cs : List Char) (f : Flag) :
    (ofOptions cs).get f = (lastWrite? f.written? cs).getD f.onByDefault := by
  rw [← get_default]
  exact foldl_lastWrite? (fun fs : Flags => fs.get f) get_applyOption {} cs

theorem get_ofLegacyOptions (cs : List Char) (f : Flag) :
    (ofLegacyOptions cs).get f = if f.letter ∈ cs then !f.onByDefault else f.onByDefault := by
  have hget : (ofLegacyOptions cs).get f =
      (lastWrite? f.writtenLegacy? cs).getD (({} : Flags).get f) :=
    foldl_lastWrite? (fun fs : Flags => fs.get f) get_applyLegacyOption {} cs
  rw [hget, get_default]
  cases hlast : lastWrite? f.writtenLegacy? cs with
  | none =>
      have hm : f.letter ∉ cs := fun hm => by
        simpa [Flag.writtenLegacy?] using lastWrite?_eq_none_iff.1 hlast _ hm
      rw [if_neg hm, Option.getD_none]
  | some on =>
      obtain ⟨before, c, after, rfl, hc, -⟩ := lastWrite?_eq_some_iff.1 hlast
      obtain ⟨rfl, rfl⟩ : c = f.letter ∧ (!f.onByDefault) = on := by
        simpa [Flag.writtenLegacy?] using hc
      rw [if_pos (by simp), Option.getD_some]

theorem ofOptions_congr {cs ds : List Char}
    (h : ∀ f : Flag, lastWrite? f.written? ds = lastWrite? f.written? cs) :
    ofOptions ds = ofOptions cs :=
  ext_get fun f => by rw [get_ofOptions, get_ofOptions, h]

theorem ofLegacyOptions_congr {cs ds : List Char}
    (h : ∀ f : Flag, f.letter ∈ ds ↔ f.letter ∈ cs) : ofLegacyOptions ds = ofLegacyOptions cs :=
  ext_get fun f => by simp only [get_ofLegacyOptions, h]

theorem lastWrite?_filter_owns (f : Flag) (cs : List Char) :
    lastWrite? f.written? (cs.filter f.Owns) = lastWrite? f.written? cs :=
  lastWrite?_filter fun _ _ hc => Flag.written?_eq_none_iff.2 (of_decide_eq_false hc)

theorem isUpper_of_isLetter {c : Char} (h : Diagnostic.isLetter .legacy c = true) :
    c.isUpper = true := by
  have hall : (Diagnostic.letters .legacy).all Char.isUpper = true := by rfl
  exact List.all_eq_true.1 hall c (List.contains_iff_mem.1 h)

theorem isLetter_letter (f : Flag) : Diagnostic.isLetter .legacy f.letter = true := by
  cases f <;> rfl

theorem ofLegacyOptions_eq_ofOptions (cs : List Char) :
    ofLegacyOptions cs =
      ofOptions ((cs.filter (Diagnostic.isLetter .legacy)).map currentLetter) := by
  rw [ofOptions_map_currentLetter fun _ hc => isUpper_of_isLetter (List.mem_filter.1 hc).2]
  refine ofLegacyOptions_congr fun f => ?_
  rw [List.mem_filter, isLetter_letter, eq_self, and_true]

/-- A flag has the case of its last letter, or its default without one, so that only the order of
the letters of one flag counts and the characters of none do not count at all. In the older form
nothing counts but which letters there are, and its letters say the same in the current form when
`S` and `T` are made small and the other characters left out. -/
theorem ofOptions_lastLetter (cs : List Char) :
    (∀ (f : Flag) (before : List Char) (c : Char) (after : List Char), cs = before ++ c :: after →
      (∀ d ∈ after, ¬f.Owns d) →
        (c = f.letter → (ofOptions cs).get f = true) ∧
        (c = f.letter.toLower → (ofOptions cs).get f = false)) ∧
    (∀ f : Flag, (∀ c ∈ cs, ¬f.Owns c) → (ofOptions cs).get f = f.onByDefault) ∧
    (∀ ds : List Char, (∀ f : Flag, ds.filter f.Owns = cs.filter f.Owns) →
      ofOptions ds = ofOptions cs) ∧
    (∀ (before : List Char) (c : Char) (after : List Char), cs = before ++ c :: after →
      (128 ≤ c.toNat ∨ ∀ f : Flag, ¬f.Owns c) → ofOptions (before ++ after) = ofOptions cs) ∧
    (∀ ds : List Char, (∀ c ∈ Diagnostic.letters .legacy, c ∈ ds ↔ c ∈ cs) →
      ofLegacyOptions ds = ofLegacyOptions cs) ∧
    ofLegacyOptions cs =
      ofOptions ((cs.filter (Diagnostic.isLetter .legacy)).map currentLetter) := by
  refine ⟨?_, ?_, ?_, ?_, ?_, ofLegacyOptions_eq_ofOptions cs⟩
  · intro f before c after hcs hafter
    have hget (hc : f.Owns c) : (ofOptions cs).get f = decide (c = f.letter) := by
      have hlast : lastWrite? f.written? cs = some (decide (c = f.letter)) :=
        lastWrite?_eq_some_iff.2 ⟨before, c, after, hcs, Flag.written?_of_owns hc,
          fun d hd => Flag.written?_eq_none_iff.2 (hafter d hd)⟩
      rw [get_ofOptions, hlast, Option.getD_some]
    have hne : f.letter.toLower ≠ f.letter := by cases f <;> decide
    constructor
    · intro hc
      rw [hget (.inl hc), decide_eq_true hc]
    · intro hc
      rw [hget (.inr hc), hc, decide_eq_false hne]
  · intro f hf
    have hlast : lastWrite? f.written? cs = none :=
      lastWrite?_eq_none_iff.2 fun c hc => Flag.written?_eq_none_iff.2 (hf c hc)
    rw [get_ofOptions, hlast, Option.getD_none]
  · intro ds h
    refine ofOptions_congr fun f => ?_
    rw [← lastWrite?_filter_owns f ds, h f, lastWrite?_filter_owns]
  · intro before c after hcs hc
    have hnone (f : Flag) : ¬f.Owns c :=
      hc.elim (fun hbig howns => absurd howns.toNat_lt (Nat.not_lt.2 hbig)) (· f)
    rw [hcs]
    exact ofOptions_congr fun f =>
      lastWrite?_delete (.inl (Flag.written?_eq_none_iff.2 (hnone f)))
  · intro ds h
    exact ofLegacyOptions_congr fun f => h f.letter (List.contains_iff_mem.1 (isLetter_letter f))

/-- A letter that is taken back, one that is repeated, and two characters that mean nothing. -/
theorem ofOptions_lastLetter_mixed :
    let cs := ['I', 'é', 's', 'i', 'S', 'x', 'S']
    (∀ d ∈ ['S', 'x', 'S'], ¬Flag.ignoreCase.Owns d) ∧ (ofOptions cs).get .ignoreCase = false ∧
    (∀ c ∈ cs, ¬Flag.trimSpaces.Owns c) ∧ (ofOptions cs).get .trimSpaces = true ∧
    (∀ f : Flag, ['s', 'S', 'I', 'S', 'i'].filter f.Owns = cs.filter f.Owns) ∧
    ofOptions ['s', 'S', 'I', 'S', 'i'] = ofOptions cs ∧
    128 ≤ 'é'.toNat ∧ ofOptions ['I', 's', 'i', 'S', 'x', 'S'] = ofOptions cs ∧
    (∀ c ∈ Diagnostic.letters .legacy, c ∈ ['S', 'I'] ↔ c ∈ cs) ∧
    ofLegacyOptions ['S', 'I'] = ofLegacyOptions cs ∧
    ofLegacyOptions cs = ofOptions ['I', 's', 's'] := by
  intro cs
  obtain ⟨hlast, hdefault, hreorder, hdelete, hset, hcurrent⟩ := ofOptions_lastLetter cs
  have hafter : ∀ d ∈ ['S', 'x', 'S'], ¬Flag.ignoreCase.Owns d := by
    simp [Flag.Owns, Flag.letter]
  have htrim : ∀ c ∈ cs, ¬Flag.trimSpaces.Owns c := by
    simp [cs, Flag.Owns, Flag.letter]
  have hfilter : ∀ f : Flag, ['s', 'S', 'I', 'S', 'i'].filter f.Owns = cs.filter f.Owns := by
    intro f
    cases f <;> decide
  have hbig : 128 ≤ 'é'.toNat := by decide
  have hletters : ∀ c ∈ Diagnostic.letters .legacy, c ∈ ['S', 'I'] ↔ c ∈ cs := by
    simp [cs, Diagnostic.letters]
  exact ⟨hafter, (hlast .ignoreCase ['I', 'é', 's'] 'i' _ rfl hafter).2 rfl, htrim, hdefault _ htrim,
    hfilter, hreorder _ hfilter, hbig, hdelete ['I'] 'é' _ rfl (.inl hbig), hletters, hset _ hletters,
    hcurrent⟩

end Flags

end AnswerGrading
