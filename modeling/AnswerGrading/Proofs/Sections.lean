import AnswerGrading.Specification
import Mathlib.Data.List.TakeWhile

/-!
Markers and gaps as texts. The readers find a marker or a gap at the start of a text exactly when one
stands there, and text that holds none of its own never moves the place of the next one.
-/

namespace AnswerGrading

def Loose (ws : List Char) : Prop :=
  ∀ c ∈ ws, isLooseSpace c = true

def Letters (cs : List Char) : Prop :=
  ∀ c ∈ cs, c.isAlpha = true

def closing (cs : List Char) : List Char :=
  ']' :: ']' :: cs

def markerText (ws letters : List Char) : List Char :=
  closing (ws ++ '/' :: letters ++ ['/'])

def gapText (ws : List Char) : List Char :=
  closing (ws ++ ['[', '['])

def MarkerTail (tail : List Char) : Prop :=
  ∃ ws letters, Loose ws ∧ Letters letters ∧ tail = ws ++ '/' :: letters ++ ['/']

def GapTail (tail : List Char) : Prop :=
  ∃ ws, Loose ws ∧ tail = ws ++ ['[', '[']

/-- `]]` and a tail of the shape, at the start of a text. -/
def Starts (shape : List Char → Prop) (cs : List Char) : Prop :=
  ∃ tail after, shape tail ∧ cs = closing tail ++ after

def Holds (shape : List Char → Prop) (cs : List Char) : Prop :=
  ∃ before tail after, shape tail ∧ cs = before ++ (closing tail ++ after)

def HasMarker (cs : List Char) : Prop :=
  Holds MarkerTail cs

def HasGap (cs : List Char) : Prop :=
  Holds GapTail cs

theorem dropWhile_append_cons {p : Char → Bool} {ws : List Char} (h : ∀ c ∈ ws, p c = true)
    {c : Char} (hc : p c = false) (rest : List Char) :
    (ws ++ c :: rest).dropWhile p = c :: rest := by
  rw [List.dropWhile_append_of_pos h, List.dropWhile_cons_of_neg (by simp [hc])]

theorem takeWhile_append_cons {p : Char → Bool} {ws : List Char} (h : ∀ c ∈ ws, p c = true)
    {c : Char} (hc : p c = false) (rest : List Char) :
    (ws ++ c :: rest).takeWhile p = ws := by
  rw [List.takeWhile_append_of_pos h, List.takeWhile_cons_of_neg (by simp [hc]), List.append_nil]

theorem afterClosing?_closing {ws : List Char} (h : Loose ws) {c : Char}
    (hc : isLooseSpace c = false) (rest : List Char) :
    afterClosing? (closing (ws ++ c :: rest)) = some (c :: rest) :=
  congrArg some (dropWhile_append_cons h hc rest)

theorem eq_of_afterClosing? {cs : List Char} {c : Char} {rest : List Char}
    (h : afterClosing? cs = some (c :: rest)) : ∃ ws, Loose ws ∧ cs = closing (ws ++ c :: rest) := by
  unfold afterClosing? at h
  split at h
  · rename_i cs
    simp only [Option.some.injEq] at h
    refine ⟨cs.takeWhile isLooseSpace, fun c hc => List.mem_takeWhile_imp hc, ?_⟩
    rw [closing, ← h, List.takeWhile_append_dropWhile]
  · cases h

theorem markerText_append (ws letters rest : List Char) :
    markerText ws letters ++ rest = closing (ws ++ '/' :: (letters ++ '/' :: rest)) := by
  simp [markerText, closing]

theorem gapText_append (ws rest : List Char) :
    gapText ws ++ rest = closing (ws ++ '[' :: '[' :: rest) := by
  simp [gapText, closing]

theorem marker?_eq_some_iff {cs letters rest : List Char} :
    marker? cs = some (letters, rest) ↔
      ∃ ws, Loose ws ∧ Letters letters ∧ cs = markerText ws letters ++ rest := by
  constructor
  · intro h
    unfold marker? at h
    split at h
    · rename_i ds hclosing
      obtain ⟨ws, hws, rfl⟩ := eq_of_afterClosing? hclosing
      split at h
      · rename_i hdrop
        cases h
        have hds := List.takeWhile_append_dropWhile (p := Char.isAlpha) (l := ds)
        rw [hdrop] at hds
        refine ⟨ws, hws, fun c hc => List.mem_takeWhile_imp hc, ?_⟩
        rw [markerText_append, hds]
      · cases h
    · cases h
  · rintro ⟨ws, hws, hl, rfl⟩
    have hc := afterClosing?_closing hws (by decide : isLooseSpace '/' = false)
      (letters ++ '/' :: rest)
    rw [marker?, markerText_append, hc]
    simp only [dropWhile_append_cons hl (by decide : Char.isAlpha '/' = false),
      takeWhile_append_cons hl (by decide : Char.isAlpha '/' = false)]

theorem gap?_eq_some_iff {cs rest : List Char} :
    gap? cs = some rest ↔ ∃ ws, Loose ws ∧ cs = gapText ws ++ rest := by
  constructor
  · intro h
    unfold gap? at h
    split at h
    · rename_i hclosing
      cases h
      obtain ⟨ws, hws, rfl⟩ := eq_of_afterClosing? hclosing
      exact ⟨ws, hws, (gapText_append ws _).symm⟩
    · cases h
  · rintro ⟨ws, hws, rfl⟩
    have hc := afterClosing?_closing hws (by decide : isLooseSpace '[' = false) ('[' :: rest)
    rw [gap?, gapText_append, hc]
    rfl

theorem exists_append_of_closing {cs tail rest rest' : List Char} (hcs : cs ≠ [])
    (htail : tail ≠ []) (hn : ']' ∉ tail) (h : cs ++ closing rest = closing tail ++ rest') :
    ∃ after, cs = closing tail ++ after := by
  rcases List.append_eq_append_iff.1 h with ⟨as, ht, hr⟩ | ⟨bs, hc, -⟩
  · match cs, as with
    | c :: cs, [] => exact ⟨[], by simpa using ht.symm⟩
    -- the closing that follows lends its first bracket, and its second would start the tail
    | [c], a :: as =>
        simp only [closing, List.cons_append, List.nil_append, List.cons.injEq] at ht hr
        obtain ⟨-, rfl, rfl⟩ := ht
        obtain ⟨t, ts, rfl⟩ := List.exists_cons_of_ne_nil htail
        simp only [List.cons_append, List.cons.injEq] at hr
        exact absurd (hr.2.1 ▸ List.mem_cons_self ..) hn
    | c :: d :: cs, a :: as =>
        simp only [closing, List.cons_append, List.cons.injEq] at ht hr
        obtain ⟨-, -, rfl⟩ := ht
        exact absurd (by rw [← hr.1]; simp) hn
  · exact ⟨bs, hc⟩

theorem MarkerTail.closing_not_mem {tail : List Char} (h : MarkerTail tail) : ']' ∉ tail := by
  obtain ⟨ws, letters, hws, hl, rfl⟩ := h
  have h1 : ']' ∉ ws := fun h => absurd (hws _ h) (by decide)
  have h2 : ']' ∉ letters := fun h => absurd (hl _ h) (by decide)
  simp [h1, h2]

theorem MarkerTail.ne_nil {tail : List Char} (h : MarkerTail tail) : tail ≠ [] := by
  obtain ⟨ws, letters, -, -, rfl⟩ := h
  simp

theorem GapTail.closing_not_mem {tail : List Char} (h : GapTail tail) : ']' ∉ tail := by
  obtain ⟨ws, hws, rfl⟩ := h
  have h : ']' ∉ ws := fun h => absurd (hws _ h) (by decide)
  simp [h]

theorem GapTail.ne_nil {tail : List Char} (h : GapTail tail) : tail ≠ [] := by
  obtain ⟨ws, -, rfl⟩ := h
  simp

theorem marker?_isSome_iff {cs : List Char} : (marker? cs).isSome = true ↔ Starts MarkerTail cs := by
  rw [Option.isSome_iff_exists]
  constructor
  · rintro ⟨⟨letters, rest⟩, h⟩
    obtain ⟨ws, hws, hl, rfl⟩ := marker?_eq_some_iff.1 h
    exact ⟨_, rest, ⟨ws, letters, hws, hl, rfl⟩, rfl⟩
  · rintro ⟨_, rest, ⟨ws, letters, hws, hl, rfl⟩, rfl⟩
    exact ⟨_, marker?_eq_some_iff.2 ⟨ws, hws, hl, rfl⟩⟩

theorem gap?_isSome_iff {cs : List Char} : (gap? cs).isSome = true ↔ Starts GapTail cs := by
  rw [Option.isSome_iff_exists]
  constructor
  · rintro ⟨rest, h⟩
    obtain ⟨ws, hws, rfl⟩ := gap?_eq_some_iff.1 h
    exact ⟨_, rest, ⟨ws, hws, rfl⟩, rfl⟩
  · rintro ⟨_, rest, ⟨ws, hws, rfl⟩, rfl⟩
    exact ⟨_, gap?_eq_some_iff.2 ⟨ws, hws, rfl⟩⟩

instance (cs : List Char) : Decidable (Starts MarkerTail cs) :=
  decidable_of_iff _ marker?_isSome_iff

instance (cs : List Char) : Decidable (Starts GapTail cs) :=
  decidable_of_iff _ gap?_isSome_iff

section

variable {shape : List Char → Prop}

theorem holds_cons_iff {c : Char} {cs : List Char} :
    Holds shape (c :: cs) ↔ Starts shape (c :: cs) ∨ Holds shape cs := by
  constructor
  · rintro ⟨before, tail, after, ht, h⟩
    cases before with
    | nil => exact .inl ⟨tail, after, ht, h⟩
    | cons b before =>
        rw [List.cons_append, List.cons.injEq] at h
        exact .inr ⟨before, tail, after, ht, h.2⟩
  · rintro (⟨tail, after, ht, h⟩ | ⟨before, tail, after, ht, rfl⟩)
    · exact ⟨[], tail, after, ht, h⟩
    · exact ⟨c :: before, tail, after, ht, rfl⟩

theorem not_holds_nil : ¬Holds shape [] := by
  rintro ⟨before, tail, after, -, h⟩
  simp [closing] at h

theorem Holds.of_starts {cs : List Char} (h : Starts shape cs) : Holds shape cs := by
  obtain ⟨tail, after, ht, rfl⟩ := h
  exact ⟨[], tail, after, ht, rfl⟩

instance decidableHolds [∀ cs, Decidable (Starts shape cs)] :
    (cs : List Char) → Decidable (Holds shape cs)
  | [] => isFalse not_holds_nil
  | _ :: cs =>
      have : Decidable (Holds shape cs) := decidableHolds cs
      decidable_of_iff _ holds_cons_iff.symm

theorem not_starts_append_closing (hn : ∀ tail, shape tail → tail ≠ [])
    (hc : ∀ tail, shape tail → ']' ∉ tail) {cs : List Char} (hcs : cs ≠ [])
    (h : ¬Holds shape cs) (rest : List Char) : ¬Starts shape (cs ++ closing rest) := by
  rintro ⟨tail, rest', ht, he⟩
  obtain ⟨after, rfl⟩ := exists_append_of_closing hcs (hn tail ht) (hc tail ht) he
  exact h ⟨[], tail, after, ht, rfl⟩

end

instance (cs : List Char) : Decidable (HasMarker cs) :=
  decidableHolds cs

instance (cs : List Char) : Decidable (HasGap cs) :=
  decidableHolds cs

theorem marker?_append_closing {cs : List Char} (hcs : cs ≠ []) (h : ¬HasMarker cs)
    (rest : List Char) : marker? (cs ++ closing rest) = none := by
  rw [← Option.not_isSome_iff_eq_none, marker?_isSome_iff]
  exact not_starts_append_closing (fun _ => MarkerTail.ne_nil)
    (fun _ => MarkerTail.closing_not_mem) hcs h rest

theorem gap?_append_closing {cs : List Char} (hcs : cs ≠ []) (h : ¬HasGap cs)
    (rest : List Char) : gap? (cs ++ closing rest) = none := by
  rw [← Option.not_isSome_iff_eq_none, gap?_isSome_iff]
  exact not_starts_append_closing (fun _ => GapTail.ne_nil)
    (fun _ => GapTail.closing_not_mem) hcs h rest

theorem gap?_eq_none {cs : List Char} (h : ¬HasGap cs) : gap? cs = none := by
  rw [← Option.not_isSome_iff_eq_none, gap?_isSome_iff]
  exact fun hs => h (.of_starts hs)

theorem firstMarker?_of_none {c : Char} {cs : List Char} (h : marker? (c :: cs) = none) :
    firstMarker? (c :: cs) =
      (firstMarker? cs).map fun (head, found) => (c :: head, found) := by
  rw [firstMarker?, h]

theorem firstMarker?_append_closing {cs : List Char} (h : ¬HasMarker cs) (rest : List Char) :
    firstMarker? (cs ++ closing rest) =
      (firstMarker? (closing rest)).map fun (head, found) => (cs ++ head, found) := by
  induction cs with
  | nil => simp
  | cons c cs ih =>
      have hm := marker?_append_closing (List.cons_ne_nil c cs) h rest
      rw [List.cons_append] at hm ⊢
      rw [firstMarker?_of_none hm, ih fun h' => h (holds_cons_iff.2 (.inr h')), Option.map_map]
      rfl

theorem firstMarker?_marker {ws letters : List Char} (hws : Loose ws) (hl : Letters letters)
    (rest : List Char) : firstMarker? (markerText ws letters ++ rest) = some ([], letters, rest) := by
  have h : marker? (markerText ws letters ++ rest) = some (letters, rest) :=
    marker?_eq_some_iff.2 ⟨ws, hws, hl, rfl⟩
  rw [markerText_append, closing] at h ⊢
  rw [firstMarker?, h]

theorem splitGaps_length (skipped rest : List Char) :
    splitGaps skipped.length (skipped ++ rest) = splitGaps 0 rest := by
  induction skipped with
  | nil => rfl
  | cons c cs ih => exact ih

theorem splitGaps_of_none {c : Char} {cs : List Char} (h : gap? (c :: cs) = none) :
    splitGaps 0 (c :: cs) = (c :: (splitGaps 0 cs).1, (splitGaps 0 cs).2) := by
  rw [splitGaps, h]

theorem splitGaps_gap {ws : List Char} (hws : Loose ws) (rest : List Char) :
    splitGaps 0 (gapText ws ++ rest) = ([], (splitGaps 0 rest).1 :: (splitGaps 0 rest).2) := by
  have h : gap? (gapText ws ++ rest) = some rest := gap?_eq_some_iff.2 ⟨ws, hws, rfl⟩
  have ht : gapText ws ++ rest = ']' :: ((']' :: ws ++ ['[', '[']) ++ rest) := by
    simp [gapText, closing]
  have hl : ((']' :: ws ++ ['[', '[']) ++ rest).length - rest.length =
      (']' :: ws ++ ['[', '[']).length := by
    rw [List.length_append, Nat.add_sub_cancel]
  rw [ht] at h ⊢
  rw [splitGaps, h]
  simp only [hl, splitGaps_length]

theorem splitGaps_append_closing {cs : List Char} (h : ¬HasGap cs) (rest : List Char) :
    splitGaps 0 (cs ++ closing rest) =
      (cs ++ (splitGaps 0 (closing rest)).1, (splitGaps 0 (closing rest)).2) := by
  induction cs with
  | nil => rfl
  | cons c cs ih =>
      have hg := gap?_append_closing (List.cons_ne_nil c cs) h rest
      rw [List.cons_append] at hg ⊢
      rw [splitGaps_of_none hg, ih fun h' => h (holds_cons_iff.2 (.inr h'))]
      rfl

theorem splitGaps_eq_self {cs : List Char} (h : ¬HasGap cs) : splitGaps 0 cs = (cs, []) := by
  induction cs with
  | nil => rfl
  | cons c cs ih => rw [splitGaps_of_none (gap?_eq_none h), ih fun h' => h (holds_cons_iff.2 (.inr h'))]

def gapped (others : List (List Char)) : List Char :=
  others.flatMap fun f => gapText [' '] ++ f

theorem gapped_cons_append (f : List Char) (fs : List (List Char)) (rest : List Char) :
    gapped (f :: fs) ++ rest = gapText [' '] ++ (f ++ (gapped fs ++ rest)) := by
  simp [gapped]

theorem firstMarker?_gap (rest : List Char) :
    firstMarker? (gapText [' '] ++ rest) =
      (firstMarker? rest).map fun (head, found) => (gapText [' '] ++ head, found) := by
  change firstMarker? (']' :: ']' :: ' ' :: '[' :: '[' :: rest) = _
  rw [firstMarker?_of_none rfl, firstMarker?_of_none rfl, firstMarker?_of_none rfl,
    firstMarker?_of_none rfl, firstMarker?_of_none rfl]
  simp only [Option.map_map]
  rfl

theorem firstMarker?_gapped {first : List Char} {others : List (List Char)}
    (h : ∀ f ∈ first :: others, ¬HasMarker f) {letters : List Char} (hl : Letters letters)
    (rest : List Char) :
    firstMarker? (first ++ (gapped others ++ (markerText [] letters ++ rest))) =
      some (first ++ gapped others, letters, rest) := by
  induction others generalizing first with
  | nil =>
      have hm : firstMarker? (markerText [] letters ++ rest) = _ :=
        firstMarker?_marker (by simp [Loose]) hl rest
      have hf := firstMarker?_append_closing (h first (by simp)) ('/' :: (letters ++ '/' :: rest))
      simp only [markerText_append, List.nil_append] at hm
      simp [markerText_append, gapped, hf, hm]
  | cons f fs ih =>
      have hf := firstMarker?_append_closing (h first (by simp))
        (' ' :: '[' :: '[' :: (f ++ (gapped fs ++ (markerText [] letters ++ rest))))
      have hfs := ih fun g hg => h g (List.mem_cons_of_mem _ hg)
      -- past the first fragment the text starts with a gap, and what follows is `ih`
      have hg := firstMarker?_gap (f ++ (gapped fs ++ (markerText [] letters ++ rest)))
      rw [hfs, gapText_append] at hg
      rw [gapped_cons_append, gapText_append]
      refine hf.trans ?_
      rw [List.cons_append, List.nil_append] at hg
      rw [hg]
      simp [gapped]

theorem splitGaps_gapped {first : List Char} {others : List (List Char)}
    (h : ∀ f ∈ first :: others, ¬HasGap f) :
    splitGaps 0 (first ++ gapped others) = (first, others) := by
  induction others generalizing first with
  | nil => simpa [gapped] using splitGaps_eq_self (h first (by simp))
  | cons f fs ih =>
      have hf := splitGaps_append_closing (h first (by simp)) (' ' :: '[' :: '[' :: (f ++ gapped fs))
      have hg : splitGaps 0 (gapText [' '] ++ (f ++ gapped fs)) = _ :=
        splitGaps_gap (by simp [Loose, isLooseSpace]) (f ++ gapped fs)
      rw [ih fun g hm => h g (List.mem_cons_of_mem _ hm), gapText_append] at hg
      have ht : gapped (f :: fs) = closing (' ' :: '[' :: '[' :: (f ++ gapped fs)) := by
        simp [gapped, gapText, closing]
      rw [ht]
      refine hf.trans ?_
      rw [List.cons_append, List.nil_append] at hg
      rw [hg]
      simp

theorem return_not_mem_gapped {fs : List (List Char)} (h : ∀ f ∈ fs, '\r' ∉ f) :
    '\r' ∉ gapped fs := by
  intro hm
  obtain ⟨f, hf, hm⟩ := List.mem_flatMap.1 hm
  simp [gapText, closing, h f hf] at hm

def bracketed (f : List Char) : List Char :=
  ['[', '['] ++ f ++ [']', ']']

def enclosed (fs : List (List Char)) : List Char :=
  [' '].intercalate (fs.map bracketed)

theorem enclosed_cons (first : List Char) (others : List (List Char)) :
    enclosed (first :: others) = '[' :: '[' :: (first ++ gapped others) ++ [']', ']'] := by
  induction others generalizing first with
  | nil => simp [enclosed, bracketed, gapped]
  | cons f fs ih =>
      have hc : enclosed (first :: f :: fs) = bracketed first ++ ' ' :: enclosed (f :: fs) := by
        simp [enclosed, List.intercalate]
      rw [hc, ih f]
      simp [bracketed, gapped, gapText, closing]

theorem exists_append_last (first : List Char) (others : List (List Char)) :
    ∃ before, '[' :: '[' :: (first ++ gapped others) =
      before ++ '[' :: (first :: others).getLast (List.cons_ne_nil first others) := by
  induction others generalizing first with
  | nil => exact ⟨['['], by simp [gapped]⟩
  | cons f fs ih =>
      obtain ⟨before, hb⟩ := ih f
      refine ⟨'[' :: '[' :: (first ++ [']', ']', ' ']) ++ before, ?_⟩
      rw [List.getLast_cons (List.cons_ne_nil f fs), List.append_assoc, ← hb]
      simp [gapped, gapText, closing]

def opened (first : List Char) (others : List (List Char)) : List Char :=
  '[' :: '[' :: (first ++ gapped others)

theorem trim_opened {first : List Char} {others : List (List Char)}
    (h : ∀ c ∈ ((first :: others).getLast (List.cons_ne_nil first others)).getLast?,
      Unicode.isSpace c = false) : Text.trim (opened first others) = opened first others := by
  apply Text.trimBy_eq_self
  · decide
  · intro c hc
    obtain ⟨before, hb⟩ := exists_append_last first others
    change c ∈ (opened first others).getLast? at hc
    rw [opened, hb, List.getLast?_append, List.getLast?_cons] at hc
    cases hl : ((first :: others).getLast (List.cons_ne_nil first others)).getLast? with
    | none =>
        have hbracket : c = '[' := by simpa [hl, eq_comm] using hc
        rw [hbracket]
        decide
    | some e =>
        have he : c = e := by simpa [hl, eq_comm] using hc
        exact h c (he ▸ hl)

theorem current?_enclosed {first : List Char} {others : List (List Char)}
    (hm : ∀ f ∈ first :: others, ¬HasMarker f) (hg : ∀ f ∈ first :: others, ¬HasGap f)
    (hlast : ∀ c ∈ ((first :: others).getLast (List.cons_ne_nil first others)).getLast?,
      Unicode.isSpace c = false)
    {letters : List Char} (hl : Letters letters) (block : List Char) :
    Sections.current? (enclosed (first :: others) ++ '/' :: (letters ++ '/' :: block)) =
      some ⟨first, others, letters, block⟩ := by
  have htext : enclosed (first :: others) ++ '/' :: (letters ++ '/' :: block) =
      '[' :: '[' :: (first ++ (gapped others ++ (markerText [] letters ++ block))) := by
    simp [enclosed_cons, markerText, closing]
  have hfront : firstMarker? (enclosed (first :: others) ++ '/' :: (letters ++ '/' :: block)) =
      some (opened first others, letters, block) := by
    rw [htext, firstMarker?_of_none rfl, firstMarker?_of_none rfl, firstMarker?_gapped hm hl block]
    rfl
  have hsplit : splitGaps 0 (dropBrackets (Text.trim (opened first others))) = (first, others) := by
    rw [trim_opened hlast]
    exact splitGaps_gapped hg
  simp only [Sections.current?, hfront, Option.bind_eq_bind, Option.bind_some, hsplit]
  rfl

end AnswerGrading
