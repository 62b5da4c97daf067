import AnswerGrading.Proofs.MarkedBrackets
import AnswerGrading.Proofs.WiderReading

/-!
What is read with a space or a run of blanks in the place of each authored space. Where the reader
meets every authored space as a piece of its own, or in a bracket expression that it adds to, the
second expression is a wider one.
-/

namespace AnswerGrading.Regex

structure Source.Wider (s s' : Source) : Prop where
  expression : s.expression.Wider s'.expression
  referred : s'.referred = s.referred
  groups : s'.groups = s.groups

namespace Reading

/-- The places where a step is taken, each with the reading so far and the text from there on. The
first argument bounds their number. -/
def places : Nat → Reading → List Char → List (Reading × List Char)
  | 0, _, _ => []
  | fuel + 1, r, cs =>
      match r.modes.skip cs with
      | .error _ => []
      | .ok cs =>
          (r, cs) ::
            match r.advance cs with
            | .error _ => []
            | .ok (r, rest) => places fuel r rest

/-- The places of the items that add to the bracket expression that starts at a place. -/
def members (p : Reading × List Char) : List (List Char) :=
  match p.2 with
  | '[' :: cs => memberPlaces p.1.modes.caseless cs
  | _ => []

/-- The text starts at the place, with room for a group, or in the bracket expression there. -/
def Admits (p : Reading × List Char) (text : List Char) : Prop :=
  (p.2 = text ∧ p.1.opened.length + 1 < maxDepth) ∨ text ∈ members p

/-- The readings are plain throughout, and each authored space is a piece or adds to a bracket
expression. -/
structure SpacesApart (fuel : Nat) (r : Reading) (ms : List (Option Char)) : Prop where
  commentFree : CommentFree (narrow ms)
  plain : ∀ p ∈ places fuel r (narrow ms), p.1.Plain
  apart : ∀ before after, ms = before ++ none :: after →
    ∃ p ∈ places fuel r (narrow ms), Admits p (narrow (none :: after))

theorem plain_iff {r : Reading} :
    r.Plain ↔ r.modes.spaced = false ∧ r.numbered = false ∧
      ∀ x ∈ r.opened, x.1.isConditional = false :=
  ⟨fun h => ⟨h.spaced, h.numbered, h.unconditional⟩, fun h => ⟨h.1, h.2.1, h.2.2⟩⟩

instance (r : Reading) : Decidable r.Plain :=
  decidable_of_iff _ plain_iff.symm

instance (cs : List Char) : Decidable (CommentFree cs) :=
  inferInstanceAs (Decidable ¬_)

instance (p : Reading × List Char) (text : List Char) : Decidable (Admits p text) :=
  inferInstanceAs (Decidable (_ ∨ _))

theorem spacesApart_iff {fuel : Nat} {r : Reading} {ms : List (Option Char)} :
    SpacesApart fuel r ms ↔
      CommentFree (narrow ms) ∧ (∀ p ∈ places fuel r (narrow ms), p.1.Plain) ∧
      ∀ n < ms.length, ms[n]? = some none →
        ∃ p ∈ places fuel r (narrow ms), Admits p (narrow (ms.drop n)) := by
  constructor
  · intro h
    refine ⟨h.commentFree, h.plain, fun n hn hm => ?_⟩
    obtain ⟨hn, hm⟩ := List.getElem?_eq_some_iff.1 hm
    have hdrop := List.drop_eq_getElem_cons hn
    rw [hm] at hdrop
    rw [hdrop]
    exact h.apart (ms.take n) (ms.drop (n + 1)) (by rw [← hdrop, List.take_append_drop])
  · rintro ⟨hc, hp, ha⟩
    refine ⟨hc, hp, ?_⟩
    rintro before after rfl
    have hn : before.length < (before ++ none :: after).length := by simp
    simpa using ha before.length hn (by simp)

instance (fuel : Nat) (r : Reading) (ms : List (Option Char)) :
    Decidable (SpacesApart fuel r ms) :=
  decidable_of_iff _ spacesApart_iff.symm

theorem places_eq {fuel : Nat} {r : Reading} {cs ds : List Char} (h : r.modes.skip cs = .ok ds) :
    places (fuel + 1) r cs =
      (r, ds) ::
        match r.advance ds with
        | .error _ => []
        | .ok (r, rest) => places fuel r rest := by
  rw [places, h]

theorem exists_skip_of_mem_places {fuel : Nat} {r : Reading} {cs : List Char}
    {p : Reading × List Char} (h : p ∈ places fuel r cs) :
    ∃ fuel' ds, fuel = fuel' + 1 ∧ r.modes.skip cs = .ok ds := by
  cases fuel with
  | zero => cases h
  | succ fuel =>
      cases hskip : r.modes.skip cs with
      | error d =>
          rw [places, hskip] at h
          cases h
      | ok ds => exact ⟨fuel, ds, rfl, rfl⟩

theorem plain_of_mem_places {fuel : Nat} {r : Reading} {cs : List Char}
    (hp : ∀ p ∈ places fuel r cs, p.1.Plain) {p : Reading × List Char}
    (h : p ∈ places fuel r cs) : r.Plain := by
  obtain ⟨fuel', ds, rfl, hskip⟩ := exists_skip_of_mem_places h
  rw [places_eq hskip] at hp
  exact hp (r, ds) (List.mem_cons_self ..)

theorem advance_suffix {r r₁ : Reading} (hp : r.Plain) (hp₁ : r₁.Plain) {cs rest : List Char}
    (hc : CommentFree cs) (h : r.advance cs = .ok (r₁, rest)) : rest <:+ cs.tail := by
  cases cs with
  | nil => cases h
  | cons c cs => exact (advance_forked (.refl r) hp hc hc (.refl cs) h hp₁).1

theorem mem_places_cases {fuel : Nat} {r : Reading} {cs : List Char} (hc : CommentFree cs)
    (hp : ∀ p ∈ places (fuel + 1) r cs, p.1.Plain) {p : Reading × List Char}
    (h : p ∈ places (fuel + 1) r cs) :
    p = (r, cs) ∨ ∃ r₁ rest, r.advance cs = .ok (r₁, rest) ∧ rest <:+ cs.tail ∧
      (∀ q ∈ places fuel r₁ rest, q.1.Plain) ∧ p ∈ places fuel r₁ rest := by
  have hplain := plain_of_mem_places hp h
  rw [places_eq (Modes.skip_of_commentFree hplain.spaced hc)] at hp h
  refine (List.mem_cons.1 h).imp id fun hmem => ?_
  have htail := (List.forall_mem_cons.1 hp).2
  cases hadvance : r.advance cs with
  | error d =>
      rw [hadvance] at hmem
      cases hmem
  | ok found =>
      obtain ⟨r₁, rest⟩ := found
      rw [hadvance] at hmem htail
      exact ⟨r₁, rest, rfl, advance_suffix hplain (plain_of_mem_places htail hmem) hc hadvance,
        htail, hmem⟩

theorem places_suffix {fuel : Nat} {r : Reading} {cs : List Char} (hc : CommentFree cs)
    (hp : ∀ p ∈ places fuel r cs, p.1.Plain) : ∀ p ∈ places fuel r cs, p.2 <:+ cs := by
  induction fuel generalizing r cs with
  | zero => exact nofun
  | succ fuel ih =>
      intro p hmem
      rcases mem_places_cases hc hp hmem with rfl | ⟨r₁, rest, -, hs, htail, hmem⟩
      · exact List.suffix_rfl
      · have hrest := hs.trans (List.tail_suffix cs)
        exact (ih (hc.of_suffix hrest) htail p hmem).trans hrest

theorem plain_of_run {fuel : Nat} {r : Reading} {cs : List Char} {source : Source}
    (h : run (fuel + 1) r cs = .ok source)
    (hp : ∀ p ∈ places (fuel + 1) r cs, p.1.Plain) : r.Plain := by
  rw [run] at h
  obtain ⟨ds, hskip, -⟩ := bind_eq_ok_iff.1 h
  rw [places_eq hskip] at hp
  exact hp (r, ds) (List.mem_cons_self ..)

theorem members_suffix {p : Reading × List Char} : ∀ q ∈ members p, q <:+ p.2.tail := by
  intro q hq
  unfold members at hq
  split at hq
  · rename_i cs hp
    rw [hp]
    exact memberPlaces_suffix q hq
  · cases hq

theorem Admits.suffix {p : Reading × List Char} {text : List Char} (h : Admits p text) :
    text <:+ p.2 := by
  rcases h with ⟨rfl, -⟩ | h
  · exact List.suffix_rfl
  · exact (members_suffix _ h).trans (List.tail_suffix _)

theorem length_lt_of_mem_members {r r₁ : Reading} {cs rest : List Char} (hp : r.Plain)
    (hc : CommentFree cs) (h : r.advance cs = .ok (r₁, rest)) :
    ∀ q ∈ members (r, cs), rest.length < q.length := by
  intro q hq
  unfold members at hq
  split at hq
  · rename_i ds hcs
    cases hcs
    obtain ⟨⟨r₂, atom, zs⟩, hstep, h⟩ := bind_eq_ok_iff.1 h
    obtain ⟨⟨e, zs⟩, hbracket, he⟩ := map_eq_ok_iff.1 hstep
    cases he
    obtain ⟨⟨f, rest⟩, hquantify, h⟩ := bind_eq_ok_iff.1 h
    cases h
    have hzs : CommentFree zs :=
      (hc.of_suffix (List.suffix_cons ..)).of_suffix (bracket_suffix hbracket)
    have hrest := (quantify_forked hp.spaced hzs hzs (.refl zs) (.refl e) hquantify).1
    exact Nat.lt_of_le_of_lt hrest.length_le (length_lt_of_mem_memberPlaces hbracket hq)
  · cases hq

theorem SpacesApart.later {fuel : Nat} {r r₁ : Reading} {m : Option Char}
    {ms : List (Option Char)} (h : SpacesApart (fuel + 1) r (m :: ms)) {rest : List Char}
    (hadvance : r.advance (narrow (m :: ms)) = .ok (r₁, rest)) {before after : List (Option Char)}
    (hms : ms = before ++ none :: after) :
    narrow (none :: after) ∈ members (r, narrow (m :: ms)) ∨ after.length < rest.length := by
  obtain ⟨p, hmem, hadmits⟩ := h.apart (m :: before) after (by rw [hms]; rfl)
  rcases mem_places_cases h.commentFree h.plain hmem with rfl | ⟨r₂, rest', hr₂, hs, hq, hmem⟩
  · refine hadmits.symm.imp_right fun hhere => ?_
    have hl := congrArg List.length hhere.1
    simp only [length_narrow, hms, List.length_append, List.length_cons] at hl
    omega
  · cases hadvance.symm.trans hr₂
    have hrest := h.commentFree.of_suffix (hs.trans (List.tail_suffix _))
    have hl := (hadmits.suffix.trans (places_suffix hrest hq p hmem)).length_le
    rw [length_narrow, List.length_cons] at hl
    exact .inr hl

theorem SpacesApart.next {fuel : Nat} {r r₁ : Reading} {ms ms' : List (Option Char)}
    (h : SpacesApart (fuel + 1) r ms) (hp : r.Plain)
    (hadvance : r.advance (narrow ms) = .ok (r₁, narrow ms')) (hs : ms' <:+ ms.tail) :
    SpacesApart fuel r₁ ms' := by
  have hskip := Modes.skip_of_commentFree hp.spaced h.commentFree
  have hplaces : places (fuel + 1) r (narrow ms) =
      (r, narrow ms) :: places fuel r₁ (narrow ms') := by
    rw [places_eq hskip, hadvance]
  have hsuffix := hs.trans (List.tail_suffix ms)
  refine ⟨h.commentFree.of_suffix (hsuffix.map _), fun p hmem => ?_, ?_⟩
  · exact h.plain p (hplaces ▸ List.mem_cons_of_mem _ hmem)
  · rintro before after rfl
    obtain ⟨w, hw⟩ := hsuffix
    obtain ⟨p, hmem, hadmits⟩ := h.apart (w ++ before) after (by rw [← hw, List.append_assoc])
    rw [hplaces] at hmem
    rcases List.mem_cons.1 hmem with rfl | hmem
    · -- the first place is in front of the step
      have hl := hs.length_le
      simp only [List.length_tail, List.length_append, List.length_cons] at hl
      rcases hadmits with ⟨htext, -⟩ | hmember
      · have hl' := congrArg List.length htext
        simp only [length_narrow, List.length_cons] at hl'
        omega
      · have hl' := length_lt_of_mem_members hp h.commentFree hadvance _ hmember
        simp only [length_narrow, List.length_append, List.length_cons] at hl'
        omega
    · exact ⟨p, hmem, hadmits⟩

theorem Wider.finish {r r' : Reading} (h : r.Wider r') {source : Source}
    (hr : r.finish = .ok source) :
    ∃ source', r'.finish = .ok source' ∧ source.Wider source' := by
  have hbodies {e : Expression} := h.levelBody (e := e)
  cases h with
  | @mk level opened hl ho =>
      unfold Reading.finish at hr ⊢
      cases hopened : r.opened with
      | nil =>
          rw [hopened] at hr ho
          cases ho
          obtain ⟨body, hbody, hr⟩ := bind_eq_ok_iff.1 hr
          cases hr
          obtain ⟨body', hbody', hwider⟩ := hbodies hbody
          exact ⟨⟨body', r.referred, r.groups⟩, by simp only [hbody']; rfl, hwider, rfl, rfl⟩
      | cons x opened =>
          rw [hopened] at hr
          cases hr

theorem run_spaceRun (fuel : Nat) {r : Reading} (hm : r.modes.spaced = false)
    (hn : r.numbered = false) (hd : r.opened.length + 1 < maxDepth) {ms : List (Option Char)}
    (hc : CommentFree (wide (none :: ms))) :
    run (fuel + 3) r (wide (none :: ms)) =
      quantify r.modes (blankRun r.modes) (wide ms) >>= fun (e, rest) =>
        run fuel (r.push e) rest := by
  have hskip {cs : List Char} (hs : cs <:+ wide (none :: ms)) : r.modes.skip cs = .ok cs :=
    Modes.skip_of_commentFree hm (hc.of_suffix hs)
  have hblank : '[' :: ' ' :: '\\' :: 't' :: ']' :: '+' :: ')' :: wide ms <:+ wide (none :: ms) :=
    List.suffix_append ['(', '?', ':'] _
  have hplus : '+' :: ')' :: wide ms <:+ wide (none :: ms) :=
    List.suffix_append ['(', '?', ':', '[', ' ', '\\', 't', ']'] _
  have hclose : ')' :: wide ms <:+ wide (none :: ms) := (List.suffix_cons ..).trans hplus
  have hgroup : r.inGroup.modes.spaced = false := hm
  calc run (fuel + 3) r (wide (none :: ms))
      = run (fuel + 2) r.inGroup
          ('[' :: ' ' :: '\\' :: 't' :: ']' :: '+' :: ')' :: wide ms) := by
        have hfirst := hskip (List.suffix_refl (wide (none :: ms)))
        rw [wide_none] at hc hfirst ⊢
        rw [run_succ (fuel + 2) hfirst, advance_open hm hd hc]
        rfl
    _ = run (fuel + 1) (r.inGroup.push (blankRun r.modes)) (')' :: wide ms) := by
        rw [run_succ (r := r.inGroup) (fuel + 1) (hskip hblank),
          advance_blank hgroup (hc.of_suffix hplus)]
        rfl
    _ = _ := by
        rw [run_succ (r := r.inGroup.push (blankRun r.modes)) fuel (hskip hclose), advance_close hn]
        cases quantify r.modes (blankRun r.modes) (wide ms) <;> rfl

section Steps

variable {fuel : Nat} {r r' r₁ : Reading} (hw : r.Wider r') (hp : r.Plain)

include hw hp

theorem SpacesApart.advance_bracket {ms : List (Option Char)}
    (ha : SpacesApart (fuel + 1) r (some '[' :: ms)) {rest : List Char}
    (hadvance : r.advance ('[' :: narrow ms) = .ok (r₁, rest)) {q : List Char}
    (hq : q ∈ memberPlaces r.modes.caseless (narrow ms)) :
    ∃ r₁' ms', ms' <:+ ms ∧ rest = narrow ms' ∧ r₁.Wider r₁' ∧
      r'.advance ('[' :: wide ms) = .ok (r₁', wide ms') := by
  obtain ⟨⟨r₂, atom, zs⟩, hstep, hread⟩ := bind_eq_ok_iff.1 hadvance
  obtain ⟨⟨e, zs⟩, hbracket, he⟩ := map_eq_ok_iff.1 hstep
  cases he
  obtain ⟨⟨f, rest⟩, hquantify, hread⟩ := bind_eq_ok_iff.1 hread
  cases hread
  have hxs := ha.commentFree.of_suffix (List.suffix_cons ..)
  have hzs := hxs.of_suffix (bracket_suffix hbracket)
  have hrest := (quantify_forked hp.spaced hzs hzs (.refl zs) (.refl e) hquantify).1.length_le
  obtain ⟨s, s', ms₁, rfl, hwithin, hs₁, rfl, hwide⟩ :=
    bracket_wide hbracket hq fun before after hms hl => by
      refine (ha.later hadvance hms).resolve_right fun hlater => ?_
      exact absurd (Nat.lt_of_lt_of_le hlater hrest) (Nat.not_lt.2 hl)
  obtain ⟨p, tail, rfl, -, hf⟩ := exists_forked ms₁
  obtain ⟨hs, f', rest', hquantify', hwider, hf'⟩ :=
    quantify_forked hp.spaced hzs (commentFree_wide hzs) hf (.char hwithin) hquantify
  obtain ⟨ms', hms', rfl, rfl⟩ := exists_marked hs hf'
  refine ⟨r'.push f', ms', hms'.trans hs₁, rfl, hw.push hwider, ?_⟩
  rw [advance, step, hw.modes, hwide]
  simp only [bind, Except.bind, Except.map]
  rw [hw.modes, show quantify r.modes _ (wide _) = _ from hquantify']
  rfl

theorem SpacesApart.advance_char {c : Char} {ms : List (Option Char)}
    (ha : SpacesApart (fuel + 1) r (some c :: ms)) {rest : List Char}
    (hadvance : r.advance (c :: narrow ms) = .ok (r₁, rest)) (hp₁ : r₁.Plain) :
    ∃ r₁' ms', ms' <:+ ms ∧ rest = narrow ms' ∧ r₁.Wider r₁' ∧
      r'.advance (c :: wide ms) = .ok (r₁', wide ms') := by
  by_cases hmember : ∃ q, q ∈ members (r, c :: narrow ms)
  · obtain ⟨q, hq⟩ := hmember
    unfold members at hq
    split at hq
    · rename_i cs hcs
      cases hcs
      exact ha.advance_bracket hw hp hadvance hq
    · cases hq
  obtain ⟨p, tail, rfl, htail, hf⟩ := exists_forked ms
  obtain ⟨hs, hforked⟩ := advance_forked hw hp ha.commentFree (commentFree_wide ha.commentFree) hf
    hadvance hp₁
  have htail := length_narrow_le htail fun after ht =>
    (ha.later hadvance (by rw [ht])).resolve_left fun hq => hmember ⟨_, hq⟩
  obtain ⟨r₁', rest', hadvance', hw₁, hf'⟩ := hforked htail
  obtain ⟨ms', hms', rfl, rfl⟩ := exists_marked hs hf'
  exact ⟨r₁', ms', hms', rfl, hw₁, hadvance'⟩

theorem SpacesApart.advance_space {ms : List (Option Char)}
    (ha : SpacesApart (fuel + 1) r (none :: ms)) {rest : List Char}
    (hadvance : r.advance (' ' :: narrow ms) = .ok (r₁, rest)) :
    ∃ r₁' ms', ms' <:+ ms ∧ rest = narrow ms' ∧ r₁.Wider r₁' ∧
      ∀ fuel', run (fuel' + 3) r' (wide (none :: ms)) = run fuel' r₁' (wide ms') := by
  have hroom : r'.opened.length + 1 < maxDepth := by
    obtain ⟨q, hmem, hadmits⟩ := ha.apart [] ms rfl
    rw [hw.length_opened]
    rcases mem_places_cases ha.commentFree ha.plain hmem with rfl | ⟨r₂, rest', hr₂, hs', hq, hmem⟩
    · exact hadmits.elim And.right fun hmember => nomatch hmember
    · have hrest := ha.commentFree.of_suffix (hs'.trans (List.tail_suffix _))
      have hl := ((hadmits.suffix.trans (places_suffix hrest hq q hmem)).trans hs').length_le
      exact absurd hl (Nat.not_succ_le_self _)
  obtain ⟨p, tail, rfl, -, hf⟩ := exists_forked ms
  obtain ⟨⟨r₂, atom, zs⟩, hstep, hread⟩ := bind_eq_ok_iff.1 hadvance
  have hspace : r.step (' ' :: narrow (p.map some ++ tail)) =
      .ok (r, some (r.caselessChar ' '), narrow (p.map some ++ tail)) := rfl
  cases hspace.symm.trans hstep
  obtain ⟨⟨f, rest'⟩, hquantify, hread⟩ := bind_eq_ok_iff.1 hread
  cases hread
  have hy := commentFree_wide ha.commentFree
  have hm' : r'.modes.spaced = false := by rw [hw.modes, hp.spaced]
  have hxs := ha.commentFree.of_suffix (List.suffix_cons ..)
  obtain ⟨hs, f', rest', hquantify', hwider, hf'⟩ :=
    quantify_forked hp.spaced hxs (commentFree_wide hxs) hf (blankRun_wider r) hquantify
  obtain ⟨ms', hms', rfl, rfl⟩ := exists_marked hs hf'
  refine ⟨r'.push f', ms', hms', rfl, hw.push hwider, fun fuel' => ?_⟩
  rw [run_spaceRun fuel' hm' (hw.numbered.trans hp.numbered) hroom hy, hw.modes]
  rw [show quantify r.modes _ (wide _) = _ from hquantify']
  rfl

end Steps

theorem run_wider {fuel fuel' : Nat} {r r' : Reading} (hw : r.Wider r')
    {ms : List (Option Char)} (hfuel : ms.length < fuel) (hfuel' : (wide ms).length < fuel')
    (ha : SpacesApart fuel r ms) {source : Source} (h : run fuel r (narrow ms) = .ok source) :
    ∃ source', run fuel' r' (wide ms) = .ok source' ∧ source.Wider source' := by
  induction fuel generalizing fuel' r r' ms with
  | zero => exact absurd hfuel (Nat.not_lt_zero _)
  | succ fuel ih =>
      obtain ⟨fuel', rfl⟩ := Nat.exists_eq_add_of_le' (Nat.zero_lt_of_lt hfuel')
      have hp := plain_of_run h ha.plain
      have hskip := Modes.skip_of_commentFree hp.spaced ha.commentFree
      cases ms with
      | nil => exact hw.finish h
      | cons m ms =>
          simp only [List.length_cons] at hfuel
          have hnext {r₁ r₁' : Reading} (hw₁ : r₁.Wider r₁') {ms' : List (Option Char)}
              (hs : ms' <:+ ms) (hadvance : r.advance (narrow (m :: ms)) = .ok (r₁, narrow ms'))
              (hrun : run fuel r₁ (narrow ms') = .ok source) {fuel' : Nat}
              (hfuel' : (wide ms').length < fuel') :
              ∃ source', run fuel' r₁' (wide ms') = .ok source' ∧ source.Wider source' := by
            have hl := hs.length_le
            exact ih hw₁ (by omega) hfuel' (ha.next hp hadvance hs) hrun
          have hwide {ms' : List (Option Char)} (hs : ms' <:+ ms) :
              (wide ms').length ≤ (wide ms).length := by
            obtain ⟨w, rfl⟩ := hs
            simp [wide_append]
          obtain ⟨⟨r₁, rest⟩, hadvance, hrun⟩ := bind_eq_ok_iff.1 ((run_succ fuel hskip).symm.trans h)
          change r.advance (narrow (m :: ms)) = _ at hadvance
          cases m with
          | none =>
              obtain ⟨r₁', ms', hs, rfl, hw₁, hrun'⟩ := ha.advance_space hw hp hadvance
              simp only [wide_none, List.length_cons] at hfuel'
              have hl := hwide hs
              obtain ⟨fuel', rfl⟩ := Nat.exists_eq_add_of_le' (show 2 ≤ fuel' by omega)
              rw [hrun' fuel']
              exact hnext hw₁ hs hadvance hrun (by omega)
          | some c =>
              have hp₁ : r₁.Plain := by
                obtain ⟨fuel, rfl⟩ := Nat.exists_eq_add_of_le' (show 1 ≤ fuel by omega)
                refine plain_of_run hrun fun q hq => ha.plain q ?_
                rw [places_eq hskip, hadvance]
                exact List.mem_cons_of_mem _ hq
              obtain ⟨r₁', ms', hs, rfl, hw₁, hadvance'⟩ := ha.advance_char hw hp hadvance hp₁
              have hm' : r'.modes.spaced = false := by rw [hw.modes, hp.spaced]
              have hskip' := Modes.skip_of_commentFree hm' (commentFree_wide ha.commentFree)
              simp only [wide_some, List.length_cons] at hfuel'
              have hl := hwide hs
              rw [wide_some] at hskip' ⊢
              rw [run_succ fuel' hskip', hadvance']
              exact hnext hw₁ hs hadvance hrun (by omega)

end Reading

end AnswerGrading.Regex
