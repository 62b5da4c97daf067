import AnswerGrading.Proofs.Sections
import Mathlib.Data.List.Basic

namespace AnswerGrading

/-- Nothing of the shape starts in the first text, in front of the rest. -/
def StartsNone (shape : List Char → Prop) (cs rest : List Char) : Prop :=
  ∀ before after, cs = before ++ after → after ≠ [] → ¬Starts shape (after ++ rest)

theorem startsNone_nil (shape : List Char → Prop) (rest : List Char) : StartsNone shape [] rest := by
  intro before after h ha
  exact absurd (List.append_eq_nil_iff.1 h.symm).2 ha

theorem startsNone_cons_iff {shape : List Char → Prop} {c : Char} {cs rest : List Char} :
    StartsNone shape (c :: cs) rest ↔
      ¬Starts shape (c :: (cs ++ rest)) ∧ StartsNone shape cs rest := by
  constructor
  · intro h
    refine ⟨h [] (c :: cs) rfl (List.cons_ne_nil c cs), ?_⟩
    intro before after he
    exact h (c :: before) after (by rw [he, List.cons_append])
  · rintro ⟨hc, hcs⟩ before after he ha
    cases before with
    | nil =>
        rw [List.nil_append] at he
        rw [← he]
        exact hc
    | cons b before =>
        rw [List.cons_append, List.cons.injEq] at he
        exact hcs before after he.2 ha

theorem marker?_eq_none_iff {cs : List Char} : marker? cs = none ↔ ¬Starts MarkerTail cs := by
  rw [← marker?_isSome_iff, Option.not_isSome_iff_eq_none]

theorem gap?_eq_none_iff {cs : List Char} : gap? cs = none ↔ ¬Starts GapTail cs := by
  rw [← gap?_isSome_iff, Option.not_isSome_iff_eq_none]

/-- The text falls into a head, a marker and a block, and no marker starts in the head. -/
structure MarkedAfter (cs head ws letters block : List Char) : Prop where
  spaces : Loose ws
  alphabetic : Letters letters
  text : cs = head ++ (markerText ws letters ++ block)
  earliest : StartsNone MarkerTail head (markerText ws letters ++ block)

theorem MarkedAfter.cons {c : Char} {cs head ws letters block : List Char}
    (h : MarkedAfter cs head ws letters block) (hc : ¬Starts MarkerTail (c :: cs)) :
    MarkedAfter (c :: cs) (c :: head) ws letters block where
  spaces := h.spaces
  alphabetic := h.alphabetic
  text := by rw [h.text, List.cons_append]
  earliest := startsNone_cons_iff.2 ⟨h.text ▸ hc, h.earliest⟩

theorem markedAfter_of_firstMarker? {cs head letters block : List Char}
    (h : firstMarker? cs = some (head, letters, block)) :
    ∃ ws, MarkedAfter cs head ws letters block := by
  induction cs generalizing head with
  | nil => cases h
  | cons c cs ih =>
      cases hm : marker? (c :: cs) with
      | some found =>
          rw [firstMarker?, hm] at h
          cases h
          obtain ⟨ws, hws, hl, ht⟩ := marker?_eq_some_iff.1 hm
          exact ⟨ws, hws, hl, ht, startsNone_nil _ _⟩
      | none =>
          rw [firstMarker?_of_none hm] at h
          obtain ⟨⟨tail, found⟩, hf, he⟩ := Option.map_eq_some_iff.1 h
          cases he
          obtain ⟨ws, hw⟩ := ih hf
          exact ⟨ws, hw.cons (marker?_eq_none_iff.1 hm)⟩

theorem firstMarker?_of_startsNone {head rest : List Char} (h : StartsNone MarkerTail head rest) :
    firstMarker? (head ++ rest) =
      (firstMarker? rest).map fun (before, found) => (head ++ before, found) := by
  induction head with
  | nil => simp
  | cons c head ih =>
      obtain ⟨hc, hhead⟩ := startsNone_cons_iff.1 h
      rw [List.cons_append, firstMarker?_of_none (marker?_eq_none_iff.2 hc), ih hhead,
        Option.map_map]
      rfl

theorem MarkedAfter.firstMarker? {cs head ws letters block : List Char}
    (h : MarkedAfter cs head ws letters block) :
    firstMarker? cs = some (head, letters, block) := by
  rw [h.text, firstMarker?_of_startsNone h.earliest, firstMarker?_marker h.spaces h.alphabetic]
  simp

theorem firstMarker?_eq_none_iff {cs : List Char} : firstMarker? cs = none ↔ ¬HasMarker cs := by
  induction cs with
  | nil => simp [firstMarker?, HasMarker, not_holds_nil]
  | cons c cs ih =>
      rw [HasMarker, holds_cons_iff, not_or, ← marker?_eq_none_iff]
      cases hm : marker? (c :: cs) with
      | some found => simp [firstMarker?, hm]
      | none =>
          rw [firstMarker?_of_none hm, Option.map_eq_none_iff, ih]
          simp [HasMarker]

/-- The text is the first piece and the others with gaps between them, each gap the first that can
start from its piece on. -/
inductive Cuts : List Char → List Char → List (List Char) → Prop
  | last {f : List Char} : StartsNone GapTail f [] → Cuts f f []
  | gap {f ws rest next : List Char} {others : List (List Char)} : Loose ws →
      StartsNone GapTail f (gapText ws ++ rest) → Cuts rest next others →
      Cuts (f ++ (gapText ws ++ rest)) f (next :: others)

theorem Cuts.cons {c : Char} {cs f : List Char} {others : List (List Char)} (h : Cuts cs f others)
    (hc : ¬Starts GapTail (c :: cs)) : Cuts (c :: cs) (c :: f) others := by
  cases h with
  | last hf =>
      refine .last (startsNone_cons_iff.2 ⟨?_, hf⟩)
      rwa [List.append_nil]
  | gap hws hf hrest => exact .gap hws (startsNone_cons_iff.2 ⟨hc, hf⟩) hrest

theorem cuts_splitGaps (cs : List Char) : Cuts cs (splitGaps 0 cs).1 (splitGaps 0 cs).2 := by
  -- past a gap the rest is shorter by more than one character
  induction hn : cs.length using Nat.strong_induction_on generalizing cs with
  | _ n ih =>
      cases cs with
      | nil => exact .last (startsNone_nil _ _)
      | cons c cs =>
          cases hg : gap? (c :: cs) with
          | some rest =>
              obtain ⟨ws, hws, ht⟩ := gap?_eq_some_iff.1 hg
              have hlen : rest.length < n := by
                rw [← hn, ht, gapText_append, closing]
                simp only [List.length_cons, List.length_append]
                omega
              rw [ht, splitGaps_gap hws]
              exact .gap hws (startsNone_nil _ _) (ih _ hlen rest rfl)
          | none =>
              rw [splitGaps_of_none hg]
              have hlen : cs.length < n := by
                rw [← hn, List.length_cons]
                exact Nat.lt_succ_self _
              exact (ih _ hlen cs rfl).cons (gap?_eq_none_iff.1 hg)

theorem splitGaps_of_startsNone {f rest : List Char} (h : StartsNone GapTail f rest) :
    splitGaps 0 (f ++ rest) = (f ++ (splitGaps 0 rest).1, (splitGaps 0 rest).2) := by
  induction f with
  | nil => rfl
  | cons c f ih =>
      obtain ⟨hc, hf⟩ := startsNone_cons_iff.1 h
      rw [List.cons_append, splitGaps_of_none (gap?_eq_none_iff.2 hc), ih hf]
      rfl

theorem Cuts.splitGaps {cs f : List Char} {others : List (List Char)} (h : Cuts cs f others) :
    splitGaps 0 cs = (f, others) := by
  induction h with
  | last hf =>
      have hs := splitGaps_of_startsNone hf
      rw [List.append_nil] at hs
      simpa [AnswerGrading.splitGaps] using hs
  | gap hws hf hrest ih =>
      rw [splitGaps_of_startsNone hf, splitGaps_gap hws, ih]
      simp

theorem Cuts.length_le {cs f : List Char} {others : List (List Char)} (h : Cuts cs f others) :
    others.length ≤ cs.length := by
  induction h with
  | last => exact Nat.zero_le _
  | gap hws hf hrest ih =>
      rw [gapText_append, closing]
      simp only [List.length_cons, List.length_append]
      omega

theorem current?_eq_some_iff {cs : List Char} {s : Sections} :
    Sections.current? cs = some s ↔
      ∃ head ws, MarkedAfter cs head ws s.letters s.block ∧
        Cuts (dropBrackets (Text.trim head)) s.first s.others := by
  constructor
  · intro h
    rw [Sections.current?, Option.bind_eq_bind, Option.bind_eq_some_iff] at h
    obtain ⟨⟨head, letters, block⟩, hm, h⟩ := h
    obtain ⟨ws, hw⟩ := markedAfter_of_firstMarker? hm
    cases h
    exact ⟨head, ws, hw, cuts_splitGaps _⟩
  · rintro ⟨head, ws, hw, hc⟩
    rw [Sections.current?, hw.firstMarker?]
    simp [hc.splitGaps]

theorem MarkedAfter.length_le {cs head ws letters block : List Char}
    (h : MarkedAfter cs head ws letters block) : head.length ≤ cs.length := by
  rw [h.text, List.length_append]
  exact Nat.le_add_right _ _

theorem length_dropBrackets_le (cs : List Char) : (dropBrackets cs).length ≤ cs.length := by
  unfold dropBrackets
  split
  · exact (Nat.le_succ _).trans (Nat.le_succ _)
  · exact Nat.le_refl _

theorem length_trim_le (cs : List Char) : (Text.trim cs).length ≤ cs.length := by
  rw [Text.trim, Text.trimBy, Text.dropEndWhile, List.length_reverse]
  refine (List.dropWhile_sublist _).length_le.trans ?_
  rw [List.length_reverse]
  exact (List.dropWhile_sublist _).length_le

theorem current?_eq_none_iff {cs : List Char} : Sections.current? cs = none ↔ ¬HasMarker cs := by
  rw [← firstMarker?_eq_none_iff, Sections.current?, Option.bind_eq_bind, Option.bind_eq_none_iff]
  constructor
  · intro h
    cases hm : firstMarker? cs with
    | none => rfl
    | some found => exact absurd (h found hm) (by simp)
  · intro h found hm
    rw [h] at hm
    cases hm

structure Suffixed (line x capitals : List Char) : Prop where
  upper : ∀ c ∈ capitals, c.isUpper = true
  text : line = x ++ '/' :: (capitals ++ ['/'])

def legacyLine (cs : List Char) : List Char :=
  Text.trimEnd (Text.firstLine (Text.trim cs)).1

theorem dropFinalSlash?_eq_some_iff {cs ds : List Char} :
    dropFinalSlash? cs = some ds ↔ cs = ds ++ ['/'] := by
  unfold dropFinalSlash?
  constructor
  · intro h
    split at h
    · rename_i hl
      cases h
      exact (List.dropLast_append_getLast? '/' hl).symm
    · cases h
  · rintro rfl
    simp

theorem dropEndWhile_append {p : Char → Bool} {run : List Char} (h : ∀ c ∈ run, p c = true)
    {c : Char} (hc : p c = false) (cs : List Char) :
    Text.dropEndWhile p (cs ++ c :: run) = cs ++ [c] := by
  have hr : ∀ d ∈ run.reverse, p d = true := fun d hd => h d (List.mem_reverse.1 hd)
  rw [Text.dropEndWhile, List.reverse_append, List.reverse_cons, List.append_assoc,
    List.singleton_append, dropWhile_append_cons hr hc, List.reverse_cons, List.reverse_reverse]

theorem takeEndWhile_append {p : Char → Bool} {run : List Char} (h : ∀ c ∈ run, p c = true)
    {c : Char} (hc : p c = false) (cs : List Char) :
    Text.takeEndWhile p (cs ++ c :: run) = run := by
  have hr : ∀ d ∈ run.reverse, p d = true := fun d hd => h d (List.mem_reverse.1 hd)
  rw [Text.takeEndWhile, List.reverse_append, List.reverse_cons, List.append_assoc,
    List.singleton_append, takeWhile_append_cons hr hc, List.reverse_reverse]

theorem mem_takeEndWhile_imp {p : Char → Bool} {cs : List Char} {c : Char}
    (h : c ∈ Text.takeEndWhile p cs) : p c = true :=
  List.mem_takeWhile_imp (List.mem_reverse.1 h)

theorem legacy?_eq_some_iff {cs : List Char} {s : Sections} :
    Sections.legacy? cs = some s ↔
      Suffixed (legacyLine cs) s.first s.letters ∧ s.others = [] ∧
        s.block = (Text.firstLine (Text.trim cs)).2 := by
  constructor
  · intro h
    simp only [Sections.legacy?, Option.bind_eq_bind, Option.bind_eq_some_iff] at h
    obtain ⟨front, hfront, x, hx, h⟩ := h
    cases h
    have ht := Text.dropEndWhile_append_takeEndWhile Char.isUpper front
    rw [dropFinalSlash?_eq_some_iff.1 hx] at ht
    refine ⟨⟨fun c hc => mem_takeEndWhile_imp hc, ?_⟩, rfl, rfl⟩
    rw [legacyLine, dropFinalSlash?_eq_some_iff.1 hfront]
    conv_lhs => rw [← ht]
    simp
  · obtain ⟨x, others, letters, block⟩ := s
    rintro ⟨⟨hl, ht⟩, rfl, rfl⟩
    have hfront : dropFinalSlash? (legacyLine cs) = some (x ++ '/' :: letters) :=
      dropFinalSlash?_eq_some_iff.2 (by simpa using ht)
    rw [legacyLine] at hfront
    have hx := dropEndWhile_append hl (by decide : Char.isUpper '/' = false) x
    have hletters := takeEndWhile_append hl (by decide : Char.isUpper '/' = false) x
    simp [Sections.legacy?, hfront, hx, hletters, dropFinalSlash?_eq_some_iff.2]

theorem Sections.inForm?_of_read? {text : List Char} {form : Form} {s : Sections}
    (h : Sections.read? text = some (form, s)) : Sections.inForm? text form = some s := by
  unfold Sections.read? at h
  split at h
  · rename_i hs
    cases h
    exact hs
  · obtain ⟨s', hs, he⟩ := Option.map_eq_some_iff.1 h
    cases he
    exact hs

theorem Sections.length_fragments_le {text : List Char} {form : Form} {s : Sections}
    (h : Sections.inForm? text form = some s) : s.fragments.length ≤ text.length + 1 := by
  rw [Sections.fragments, List.length_cons]
  refine Nat.succ_le_succ ?_
  cases form with
  | current =>
      obtain ⟨head, ws, hm, hc⟩ := current?_eq_some_iff.1 h
      calc s.others.length
        _ ≤ (dropBrackets (Text.trim head)).length := hc.length_le
        _ ≤ head.length := (length_dropBrackets_le _).trans (length_trim_le head)
        _ ≤ (Text.withoutReturns text).length := hm.length_le
        _ ≤ text.length := List.length_filter_le _ _
  | legacy =>
      obtain ⟨-, ho, -⟩ := legacy?_eq_some_iff.1 h
      rw [ho]
      exact Nat.zero_le _

namespace Specification

theorem fragments_set (s : Specification) (value : List Char) (k : Key) :
    (s.set value k).fragments = s.fragments := by
  cases k <;> rfl

theorem flags_set (s : Specification) (value : List Char) (k : Key) :
    (s.set value k).flags = s.flags := by
  cases k <;> rfl

theorem applyAll_keeps {α : Type} {f : Specification → α}
    (h : ∀ s value k, f (s.set value k) = f s) (s : Specification) (ls : List SettingLine) :
    f (s.applyAll ls) = f s := by
  induction ls generalizing s with
  | nil => rfl
  | cons l ls ih =>
      refine (ih (s.apply l)).trans ?_
      cases l with
      | setting k value => exact h s value k
      | unknown line => rfl

theorem fragments_ofSections (form : Form) (s : Sections) :
    (ofSections form s).fragments = s.fragments.map String.ofList :=
  applyAll_keeps fragments_set _ _

theorem flags_ofSections (form : Form) (s : Sections) :
    (ofSections form s).flags = flagsOf s.letters form :=
  applyAll_keeps flags_set _ _

theorem length_fragments_parse_le (text : String) :
    (parse text).fragments.length ≤ text.length + 1 := by
  unfold parse
  split
  · rename_i form s h
    rw [fragments_ofSections, List.length_map]
    exact Sections.length_fragments_le (Sections.inForm?_of_read? h)
  · exact Nat.le_add_left _ _

theorem inForm_eq_ok_iff {form : Form} {text : String} {b : Specification} :
    inForm form text = .ok b ↔
      ∃ s, Sections.inForm? text.toList form = some s ∧ ofSections form s = b := by
  unfold inForm
  split
  · rename_i s hs
    simp [hs]
  · rename_i hs
    simp [hs]

theorem exists_inForm_current_iff {text : String} :
    (∃ b, inForm .current text = .ok b) ↔ HasMarker (Text.withoutReturns text.toList) := by
  constructor
  · rintro ⟨b, hb⟩
    obtain ⟨s, hs, -⟩ := inForm_eq_ok_iff.1 hb
    by_contra hm
    rw [Sections.inForm?, current?_eq_none_iff.2 hm] at hs
    cases hs
  · intro hm
    cases hs : Sections.inForm? text.toList .current with
    | some s => exact ⟨_, inForm_eq_ok_iff.2 ⟨s, hs, rfl⟩⟩
    | none => exact absurd hm (current?_eq_none_iff.1 hs)

theorem inForm_current_iff {text : String} {b : Specification} :
    inForm .current text = .ok b ↔
      ∃ head ws s, MarkedAfter (Text.withoutReturns text.toList) head ws s.letters s.block ∧
        Cuts (dropBrackets (Text.trim head)) s.first s.others ∧
        b.fragments = (s.first :: s.others).map String.ofList ∧
        b.flags = Flags.ofOptions s.letters ∧ b = ofSections .current s := by
  rw [inForm_eq_ok_iff]
  constructor
  · rintro ⟨s, hs, rfl⟩
    obtain ⟨head, ws, hm, hc⟩ := current?_eq_some_iff.1 hs
    exact ⟨head, ws, s, hm, hc, fragments_ofSections _ _, flags_ofSections _ _, rfl⟩
  · rintro ⟨head, ws, s, hm, hc, -, -, rfl⟩
    exact ⟨s, current?_eq_some_iff.2 ⟨head, ws, hm, hc⟩, rfl⟩

theorem inForm_legacy_iff {text : String} {b : Specification} :
    let t := Text.withoutReturns text.toList
    inForm .legacy text = .ok b ↔
      ∃ x capitals, Suffixed (legacyLine t) x capitals ∧ b.fragments = [String.ofList x] ∧
        b.flags = Flags.ofLegacyOptions capitals ∧
        b = ofSections .legacy ⟨x, [], capitals, (Text.firstLine (Text.trim t)).2⟩ := by
  intro t
  rw [inForm_eq_ok_iff]
  constructor
  · rintro ⟨⟨x, others, capitals, block⟩, hs, rfl⟩
    obtain ⟨hx, rfl, rfl⟩ := legacy?_eq_some_iff.1 hs
    exact ⟨x, capitals, hx, fragments_ofSections _ _, flags_ofSections _ _, rfl⟩
  · rintro ⟨x, capitals, hx, -, -, rfl⟩
    exact ⟨⟨x, [], capitals, _⟩, legacy?_eq_some_iff.2 ⟨hx, rfl, rfl⟩, rfl⟩

/-- The current form is any text with a marker in it, and the older form any text whose first line
ends in slashes around capitals; each is read from the one way in which it can be cut. -/
theorem inForm_recognizes (text : String) :
    let t := Text.withoutReturns text.toList
    ((∃ b, inForm .current text = .ok b) ↔ HasMarker t) ∧
    (∀ b, inForm .current text = .ok b ↔
      ∃ head ws s, MarkedAfter t head ws s.letters s.block ∧
        Cuts (dropBrackets (Text.trim head)) s.first s.others ∧
        b.fragments = (s.first :: s.others).map String.ofList ∧
        b.flags = Flags.ofOptions s.letters ∧ b = ofSections .current s) ∧
    ((∃ b, inForm .legacy text = .ok b) ↔ ∃ x capitals, Suffixed (legacyLine t) x capitals) ∧
    (∀ b, inForm .legacy text = .ok b ↔
      ∃ x capitals, Suffixed (legacyLine t) x capitals ∧ b.fragments = [String.ofList x] ∧
        b.flags = Flags.ofLegacyOptions capitals ∧
        b = ofSections .legacy ⟨x, [], capitals, (Text.firstLine (Text.trim t)).2⟩) := by
  intro t
  refine ⟨exists_inForm_current_iff, fun b => inForm_current_iff, ?_, fun b => inForm_legacy_iff⟩
  constructor
  · rintro ⟨b, hb⟩
    obtain ⟨x, capitals, hx, -⟩ := inForm_legacy_iff.1 hb
    exact ⟨x, capitals, hx⟩
  · rintro ⟨x, capitals, hx⟩
    refine ⟨ofSections .legacy ⟨x, [], capitals, _⟩, inForm_legacy_iff.2 ⟨x, capitals, hx, ?_, ?_, rfl⟩⟩
    · exact fragments_ofSections _ _
    · exact flags_ofSections _ _

/-- A gap starts at the second of three brackets when none starts at the first. -/
example : (inForm .current "[[a]]] [[b]] ]]\n/iX/").map (fun b => (b.fragments, b.flags)) =
    .ok (["a]", "b]]"], {}) := by decide

end Specification

end AnswerGrading
