import AnswerGrading.Proofs.MarkedTexts
import AnswerGrading.Proofs.WiderExpressions

/-!
Bracket expressions with authored spaces among their items. A run of blanks has nine items in a
bracket, a bracket of its own among them; where items only add to the set, it adds the space and
more.
-/

namespace AnswerGrading.Regex

/-- A hyphen that joins what stands before it to the item behind it. -/
def joins : List BracketItem → Bool
  | .bare '-' :: last :: _ => last != .bare ']' && last != .bare '-'
  | _ => false

/-- No bracket in the bracket, no operation, and no span that begins with a space. -/
def additive : List BracketItem → Bool
  | [] => true
  | item :: items =>
      item != .bare '[' && (operation? (item :: items)).isNone &&
        !(item == .bare ' ' && joins items) && additive items

def runTail : List BracketItem :=
  ['?', ':', '[', ' ', '\t', ']', '+', ')'].map .bare

/-- Items up to the bracket that closes them, beside the same ones with runs of blanks for some of
the spaces. -/
inductive Widened : List BracketItem → List BracketItem → Prop
  | close : Widened [.bare ']'] [.bare ']']
  | item {i : BracketItem} {is is' : List BracketItem} (h : i ≠ .bare ']') :
      Widened is is' → Widened (i :: is) (i :: is')
  | space {is is' : List BracketItem} :
      Widened is is' → Widened (.bare ' ' :: is) (.bare '(' :: runTail ++ is')

theorem additive_cons {item : BracketItem} {items : List BracketItem} :
    additive (item :: items) = true ↔ item ≠ .bare '[' ∧ operation? (item :: items) = none ∧
      (item = .bare ' ' → joins items = false) ∧ additive items = true := by
  simp only [additive, Bool.and_eq_true, bne_iff_ne, Option.isNone_iff_eq_none,
    Bool.not_eq_true', Bool.and_eq_false_imp, beq_iff_eq, and_assoc]

section Reading

variable {caseless : Bool} {fuel : Nat} {b : Bracket} {item : BracketItem}
  {items : List BracketItem}

theorem readBracket_item (outer : List Bracket) (hopen : item ≠ .bare '[')
    (hclose : item ≠ .bare ']') (hop : operation? (item :: items) = none) :
    readBracket caseless (fuel + 1) b outer (item :: items) =
      spanItem item items >>= fun (s, rest) => readBracket caseless fuel (b.add s) outer rest := by
  rw [readBracket]
  · rw [hop]
  · exact hopen
  · exact hclose

theorem spanItem_alone (hjoin : joins items = false) (hend : items ≠ [.bare '-']) :
    spanItem item items = .ok (item.toSet, items) := by
  unfold spanItem
  split
  · simp only [joins, Bool.and_eq_false_imp, bne_iff_ne, bne_eq_false_iff_eq] at hjoin
    exact if_pos (Decidable.or_iff_not_imp_left.2 hjoin)
  · exact absurd rfl hend
  · rfl

theorem operation?_congr {j : BracketItem} {is js : List BracketItem}
    (h : operation? (item :: j :: is) = none) : operation? (item :: j :: js) = none := by
  unfold operation? at h ⊢
  split at h
  · cases h
  · cases h
  · cases h
  · split <;> simp_all

namespace Widened

variable {is is' : List BracketItem}

theorem ne_hyphen (h : Widened is is') : is ≠ [.bare '-'] ∧ is' ≠ [.bare '-'] := by
  cases h with
  | close => decide
  | space => exact ⟨nofun, nofun⟩
  | item _ h => cases h <;> exact ⟨nofun, nofun⟩

theorem joins_eq (h : Widened is is') : joins is' = joins is := by
  cases h with
  | close => rfl
  | space => rfl
  | @item i js js' _ h =>
      by_cases hi : i = .bare '-'
      · subst hi
        cases h <;> rfl
      · unfold joins
        split <;> simp_all

theorem operation?_eq_none (h : Widened is is') (hop : operation? (item :: is) = none) :
    operation? (item :: is') = none := by
  cases h with
  | close => exact hop
  | item => exact operation?_congr hop
  | space =>
      unfold operation?
      split <;> simp_all

end Widened

theorem spanItem_span {a b : Char} (hitem : item.char? = some a) {last : BracketItem}
    (hlast : last.char? = some b) (hclose : last ≠ .bare ']') (hhyphen : last ≠ .bare '-') :
    spanItem item (.bare '-' :: last :: items) =
      if a ≤ b then .ok (.span a b, items) else .error .badSpan := by
  rw [spanItem, if_neg (not_or.2 ⟨hclose, hhyphen⟩), hitem, hlast]

theorem spanItem_length {t : CharSet} {rest : List BracketItem}
    (h : spanItem item items = .ok (t, rest)) : rest.length ≤ items.length := by
  unfold spanItem at h
  split at h
  · split at h
    · cases h
      exact Nat.le_refl _
    · split at h
      · split at h
        · cases h
          simp only [List.length_cons]
          omega
        · cases h
      · cases h
  · cases h
  · cases h
    exact Nat.le_refl _

/-- A span that ends with a space ends with the bracket of the group instead, and the rest of the
run of blanks is still to be read. -/
theorem spanItem_widened {is is' rest : List BracketItem} (hw : Widened is is')
    (ha : additive is = true) {t : CharSet} (h : spanItem item is = .ok (t, rest)) :
    ∃ t' rest', spanItem item is' = .ok (t', rest') ∧ t.Within t' ∧ additive rest = true ∧
      (Widened rest rest' ∨
        ∃ rest'', rest' = runTail ++ rest'' ∧ Widened rest rest'' ∧ joins rest = false) := by
  by_cases hjoin : joins is = true
  · obtain ⟨last, js, rfl⟩ : ∃ last js, is = .bare '-' :: last :: js := by
      unfold joins at hjoin
      split at hjoin
      · exact ⟨_, _, rfl⟩
      · cases hjoin
    have hlast : last ≠ .bare ']' ∧ last ≠ .bare '-' := by simpa [joins] using hjoin
    have hjs := (additive_cons.1 (additive_cons.1 ha).2.2.2).2.2
    rw [spanItem, if_neg (not_or.2 hlast)] at h
    split at h
    · rename_i a b hitem hchar
      split at h
      · rename_i hab
        cases h
        cases hw with
        | item _ hw =>
            cases hw with
            | close => exact absurd rfl hlast.1
            | @item _ _ js' _ hw =>
                refine ⟨.span a b, js', ?_, .refl _, hjs.2, .inl hw⟩
                rw [spanItem_span hitem hchar hlast.1 hlast.2, if_pos hab]
            | @space _ js' hw =>
                cases hchar
                refine ⟨.span a '(', runTail ++ js', ?_, .span a (by decide), hjs.2,
                  .inr ⟨js', rfl, hw, hjs.1 rfl⟩⟩
                rw [List.cons_append,
                  spanItem_span hitem (b := '(') rfl (by decide) (by decide),
                  if_pos (Char.le_trans hab (by decide))]
      · cases h
    · cases h
  · rw [Bool.not_eq_true] at hjoin
    have hend : is ≠ [.bare '-'] := by
      rintro rfl
      cases h
    rw [spanItem_alone hjoin hend] at h
    cases h
    refine ⟨item.toSet, is', ?_, .refl _, ha, .inl hw⟩
    exact spanItem_alone (hw.joins_eq.trans hjoin) hw.ne_hyphen.2

theorem readBracket_runTail (caseless : Bool) (fuel : Nat) (u : CharSet) (hjoin : joins items = false)
    (hend : items ≠ [.bare '-']) :
    ∃ v : CharSet, u.Within v ∧ v.mem ' ' = true ∧
      readBracket caseless (fuel + 8) ⟨false, u, none⟩ [] (runTail ++ items) =
        readBracket caseless fuel ⟨false, v, none⟩ [] items := by
  have hlast (b : Bracket) : readBracket caseless (fuel + 1) b [] (.bare ')' :: items) =
      readBracket caseless fuel (b.add (.one ')')) [] items := by
    rw [readBracket_item [] (by decide) (by decide) (by rfl), spanItem_alone hjoin hend]
    rfl
  let blanks := (CharSet.union (.union .none (.one ' ')) (.one '\t')).foldedIf caseless
  have hblanks : blanks.mem ' ' = true := by cases caseless <;> rfl
  refine ⟨.union (.union (.union (.union (.union u (.one '?')) (.one ':')) blanks) (.one '+'))
    (.one ')'), ?_, ?_, ?_⟩
  · iterate 5 refine .union_right ?_ _
    exact .refl u
  · simp [hblanks]
  · exact hlast _

theorem readBracket_widened {fuel' : Nat} {items' : List BracketItem} (hw : Widened items items')
    (ha : additive items = true) {u u' : CharSet} (hu : u.Within u') (hfuel : items'.length < fuel')
    {s : CharSet} {rest : List BracketItem}
    (h : readBracket caseless fuel ⟨false, u, none⟩ [] items = .ok (s, rest)) :
    rest = [] ∧ ∃ s', readBracket caseless fuel' ⟨false, u', none⟩ [] items' = .ok (s', []) ∧
      s.Within s' := by
  induction fuel generalizing fuel' items items' u u' with
  | zero => cases h
  | succ fuel ih =>
      obtain ⟨fuel', rfl⟩ := Nat.exists_eq_add_of_le' (Nat.zero_lt_of_lt hfuel)
      cases hw with
      | close =>
          cases h
          exact ⟨rfl, _, rfl, hu.foldedIf caseless⟩
      | @item i is is' hi hw =>
          obtain ⟨hopen, hop, -, ha⟩ := additive_cons.1 ha
          rw [readBracket_item [] hopen hi hop] at h
          obtain ⟨⟨t, is₁⟩, hspan, h⟩ := bind_eq_ok_iff.1 h
          obtain ⟨t', is₁', hspan', ht, ha₁, hrest⟩ := spanItem_widened hw ha hspan
          have hl := spanItem_length hspan'
          rw [readBracket_item [] hopen hi (hw.operation?_eq_none hop), hspan']
          simp only [List.length_cons] at hfuel
          rcases hrest with hw₁ | ⟨is₂, rfl, hw₂, hjoin⟩
          · exact ih hw₁ ha₁ (hu.union ht) (by omega) h
          · simp only [List.length_append, runTail, List.length_map, List.length_cons,
              List.length_nil] at hl
            obtain ⟨fuel', rfl⟩ := Nat.exists_eq_add_of_le' (show 8 ≤ fuel' by omega)
            obtain ⟨v, hv, -, htail⟩ := readBracket_runTail caseless fuel' (.union u' t')
              (hw₂.joins_eq.trans hjoin) hw₂.ne_hyphen.2
            have hfuel₂ : is₂.length < fuel' := by omega
            obtain ⟨hrest, s', hs, hwithin⟩ := ih hw₂ ha₁ ((hu.union ht).trans hv) hfuel₂ h
            exact ⟨hrest, s', htail.trans hs, hwithin⟩
      | @space is is' hw =>
          obtain ⟨-, hop, hspace, ha⟩ := additive_cons.1 ha
          have hjoin := hspace rfl
          rw [readBracket_item [] (by decide) (by decide) hop,
            spanItem_alone hjoin hw.ne_hyphen.1] at h
          simp only [List.length_append, runTail, List.length_map, List.length_cons,
            List.length_nil] at hfuel
          obtain ⟨fuel', rfl⟩ := Nat.exists_eq_add_of_le' (show 8 ≤ fuel' by omega)
          obtain ⟨v, hv, hblank, htail⟩ := readBracket_runTail caseless fuel'
            (.union u' (.one '(')) (hw.joins_eq.trans hjoin) hw.ne_hyphen.2
          have hwithin : (CharSet.union u (.one ' ')).Within v := by
            intro c hc
            rw [CharSet.mem_union, Bool.or_eq_true] at hc
            exact hc.elim (fun hc => hv c (hu.union_right _ c hc)) (CharSet.Within.one hblank c)
          have hfuel₁ : is'.length < fuel' := by omega
          obtain ⟨hrest, s', hs, hwithin⟩ := ih hw ha hwithin hfuel₁ h
          refine ⟨hrest, s', ?_, hwithin⟩
          rw [List.cons_append, readBracket_item [] (by decide) (by decide) (by rfl)]
          exact htail.trans hs

theorem leadingHyphens_of_head? (h : items.head? ≠ some (.bare '-')) :
    leadingHyphens items = (.none, items) := by
  unfold leadingHyphens
  split
  · exact absurd rfl h
  · rfl

theorem openBracket_of_head? (hhat : items.head? ≠ some (.bare '^'))
    (hhyphen : items.head? ≠ some (.bare '-')) (hclose : items.head? ≠ some (.bare ']')) :
    openBracket items = (⟨false, .none, none⟩, items) := by
  unfold openBracket
  split
  rename_i hstart
  split at hstart
  · exact absurd rfl hhat
  · cases hstart
    rw [leadingHyphens_of_head? hhyphen]
    split
    · rename_i he
      cases he
      exact absurd rfl hclose
    · rename_i he
      cases he
      rfl

theorem openBracket_hyphen (h : items.head? ≠ some (.bare '-')) :
    openBracket (.bare '-' :: items) = (⟨false, .union (.one '-') .none, none⟩, items) := by
  rw [openBracket]
  · rw [leadingHyphens, leadingHyphens_of_head? h]
  · exact nofun

theorem Widened.head?_ne {is is' : List BracketItem} (h : Widened is is') {c : Char}
    (hc : c ≠ '(') (hhead : is.head? ≠ some (.bare c)) : is'.head? ≠ some (.bare c) := by
  cases h with
  | close => exact hhead
  | item => exact hhead
  | space => exact fun he => hc (by cases he; rfl)

theorem openBracket_widened {is is' : List BracketItem} (hw : Widened is is')
    (ha : additive is = true) (hneg : (openBracket is).1.negated = false) :
    ∃ u js js', openBracket is = (⟨false, u, none⟩, js) ∧
      openBracket is' = (⟨false, u, none⟩, js') ∧ (js = [] ∨ Widened js js' ∧ additive js = true) := by
  have hhat : is.head? ≠ some (.bare '^') := by
    rintro he
    obtain ⟨js, rfl⟩ := List.head?_eq_some_iff.1 he
    rw [openBracket] at hneg
    split at hneg <;> cases hneg
  by_cases hclose : is.head? = some (.bare ']')
  · obtain ⟨js, rfl⟩ := List.head?_eq_some_iff.1 hclose
    cases hw with
    | close => exact ⟨.one ']', [], [], rfl, rfl, .inl rfl⟩
    | item h => exact absurd rfl h
  by_cases hhyphen : is.head? = some (.bare '-')
  · obtain ⟨js, rfl⟩ := List.head?_eq_some_iff.1 hhyphen
    obtain ⟨-, hop, -, hjs⟩ := additive_cons.1 ha
    have hhead : js.head? ≠ some (.bare '-') := by
      rintro he
      obtain ⟨ks, rfl⟩ := List.head?_eq_some_iff.1 he
      cases hop
    cases hw with
    | @item _ _ js' _ hw =>
        exact ⟨_, js, js', openBracket_hyphen hhead,
          openBracket_hyphen (hw.head?_ne (by decide) hhead), .inr ⟨hw, hjs⟩⟩
  · exact ⟨.none, is, is', openBracket_of_head? hhat hhyphen hclose,
      openBracket_of_head? (hw.head?_ne (by decide) hhat) (hw.head?_ne (by decide) hhyphen)
        (hw.head?_ne (by decide) hclose), .inr ⟨hw, ha⟩⟩

def IsStart (start : List BracketItem) : Prop :=
  start = [] ∨ start = [.bare ']'] ∨ ∃ more, start = .bare '^' :: more

theorem bracketSet_widened {start is is' : List BracketItem} (hstart : IsStart start)
    (hw : Widened is is') (ha : additive is = true)
    (hneg : (openBracket (start ++ is)).1.negated = false) {s : CharSet} {left : List BracketItem}
    (h : bracketSet caseless (start ++ is) = .ok (s, left)) :
    left = [] ∧ ∃ s', bracketSet caseless (start ++ is') = .ok (s', []) ∧ s.Within s' := by
  unfold bracketSet at h ⊢
  rcases hstart with rfl | rfl | ⟨more, rfl⟩
  · obtain ⟨u, js, js', hx, hy, hrest⟩ := openBracket_widened hw ha hneg
    rw [List.nil_append] at h ⊢
    rw [hx] at h
    rw [hy]
    rcases hrest with rfl | ⟨hw, ha⟩
    · cases h
    · exact readBracket_widened hw ha (.refl u) (Nat.lt_succ_self _) h
  · exact readBracket_widened hw ha (.refl (.one ']')) (Nat.lt_succ_self _) h
  · rw [List.cons_append, openBracket] at hneg
    split at hneg <;> cases hneg

end Reading

section Texts

variable {caseless : Bool}

def escapeItem : Escape → Except Defect BracketItem
  | .numbered c => .ok (.ofEscaped c)
  | .exact c => .ok (.ofEscaped c)
  | .set s => .ok (.set s)
  | _ => .error .badBracketItem

theorem escapeItem_ne_close {e : Escape} {item : BracketItem} (h : escapeItem e = .ok item) :
    item ≠ .bare ']' := by
  have hmeta (c : Char) : BracketItem.ofEscaped c ≠ .bare ']' := by
    unfold BracketItem.ofEscaped
    split
    · exact nofun
    · rename_i hc
      intro he
      cases he
      exact hc rfl
  cases e <;> cases h
  · exact hmeta _
  · exact hmeta _
  · exact nofun

theorem bracketItems_escape (fuel nest : Nat) (cs : List Char) :
    bracketItems caseless (fuel + 1) nest ('\\' :: cs) =
      escape true caseless cs >>= fun x => escapeItem x.1 >>= fun item =>
        (bracketItems caseless fuel nest x.2).map fun y => (item :: y.1, y.2) := by
  rw [bracketItems]
  cases escape true caseless cs with
  | error d => rfl
  | ok found =>
      obtain ⟨e, rest⟩ := found
      cases e <;> cases bracketItems caseless fuel nest rest <;> rfl

theorem bracketItems_char (fuel nest : Nat) {c : Char} (h : c ∉ ['\\', '[', ']'])
    (cs : List Char) :
    bracketItems caseless (fuel + 1) nest (c :: cs) =
      (bracketItems caseless fuel nest cs).map fun y => (.bare c :: y.1, y.2) := by
  simp only [List.mem_cons, List.not_mem_nil, or_false, not_or] at h
  rw [bracketItems]
  · rw [if_neg h.2.1]
    cases bracketItems caseless fuel nest cs <;> rfl
  · exact h.1
  · exact h.2.2

theorem bracketItems_open (fuel nest : Nat) (cs : List Char) :
    bracketItems caseless (fuel + 1) nest ('[' :: cs) =
      (bracketItems caseless fuel (nest + 1) cs).map fun y => (.bare '[' :: y.1, y.2) := by
  rw [bracketItems]
  · rw [if_pos rfl]
    cases bracketItems caseless fuel (nest + 1) cs <;> rfl
  · decide
  · decide

theorem bracketItems_close (fuel : Nat) {nest : Nat} (h : nest ≠ 1) (cs : List Char) :
    bracketItems caseless (fuel + 1) nest (']' :: cs) =
      (bracketItems caseless fuel (nest - 1) cs).map fun y => (.bare ']' :: y.1, y.2) := by
  rw [bracketItems, if_neg h]
  cases bracketItems caseless fuel (nest - 1) cs <;> rfl

theorem bracketItems_run (fuel : Nat) (ms : List (Option Char)) :
    bracketItems caseless (fuel + 9) 1 (wide (none :: ms)) =
      (bracketItems caseless fuel 1 (wide ms)).map fun y =>
        (.bare '(' :: runTail ++ y.1, y.2) := by
  have htab (cs : List Char) : escape true caseless ('t' :: cs) = .ok (.exact '\t', cs) := rfl
  rw [wide_none, bracketItems_char _ _ (by decide), bracketItems_char _ _ (by decide),
    bracketItems_char _ _ (by decide), bracketItems_open, bracketItems_char _ _ (by decide),
    bracketItems_escape, htab]
  simp only [bind, Except.bind, escapeItem]
  rw [bracketItems_close _ (by decide), bracketItems_char _ _ (by decide),
    bracketItems_char _ _ (by decide)]
  cases bracketItems caseless fuel 1 (wide ms) <;> rfl

/-- The places where an item of a bracket expression begins, each with the text from there on. The
first argument bounds their number; those behind the closing bracket mean nothing. -/
def itemPlaces (caseless : Bool) : Nat → List Char → List (List Char)
  | 0, _ => []
  | _ + 1, [] => []
  | fuel + 1, '\\' :: cs =>
      ('\\' :: cs) ::
        match escape true caseless cs with
        | .error _ => []
        | .ok (_, rest) => itemPlaces caseless fuel rest
  | fuel + 1, c :: cs => (c :: cs) :: itemPlaces caseless fuel cs

theorem itemPlaces_char (fuel : Nat) {c : Char} (h : c ≠ '\\') (cs : List Char) :
    itemPlaces caseless (fuel + 1) (c :: cs) = (c :: cs) :: itemPlaces caseless fuel cs := by
  rw [itemPlaces]
  exact h

theorem itemPlaces_escape (fuel : Nat) {cs rest : List Char} {e : Escape}
    (h : escape true caseless cs = .ok (e, rest)) :
    itemPlaces caseless (fuel + 1) ('\\' :: cs) =
      ('\\' :: cs) :: itemPlaces caseless fuel rest := by
  rw [itemPlaces, h]

theorem escape_suffix {cs rest : List Char} {e : Escape}
    (h : escape true caseless cs = .ok (e, rest)) : rest <:+ cs :=
  (escape_keeps true caseless (.refl cs) e rest h).1

theorem itemPlaces_suffix {fuel : Nat} {cs : List Char} :
    ∀ p ∈ itemPlaces caseless fuel cs, p <:+ cs := by
  induction fuel generalizing cs with
  | zero => exact nofun
  | succ fuel ih =>
      intro p hp
      cases cs with
      | nil => cases hp
      | cons c cs =>
          by_cases hc : c = '\\'
          · subst hc
            cases he : escape true caseless cs with
            | error d =>
                rw [itemPlaces, he] at hp
                rw [List.mem_singleton.1 hp]
            | ok found =>
                rw [itemPlaces_escape fuel he] at hp
                rcases List.mem_cons.1 hp with rfl | hp
                · exact List.suffix_rfl
                · exact (ih p hp).trans ((escape_suffix he).trans (List.suffix_cons ..))
          · rw [itemPlaces_char fuel hc] at hp
            rcases List.mem_cons.1 hp with rfl | hp
            · exact List.suffix_rfl
            · exact (ih p hp).trans (List.suffix_cons ..)

theorem length_wide_le {ms' ms : List (Option Char)} (h : ms' <:+ ms) :
    (wide ms').length ≤ (wide ms).length := by
  obtain ⟨w, rfl⟩ := h
  rw [wide_append, List.length_append]
  exact Nat.le_add_left ..

theorem bracketItems_suffix {fuel nest : Nat} {cs rest : List Char} {items : List BracketItem}
    (h : bracketItems caseless fuel nest cs = .ok (items, rest)) : rest <:+ cs :=
  (bracketItems_keeps caseless (Nat.le_refl fuel) nest (.refl cs) items rest h).1

theorem mem_itemPlaces_tail {fuel : Nat} {m : Option Char} {before after : List (Option Char)}
    {ps : List (List Char)}
    (hmem : narrow (none :: after) ∈
      itemPlaces caseless fuel (narrow (m :: (before ++ none :: after))))
    (hps : itemPlaces caseless fuel (narrow (m :: (before ++ none :: after))) =
      narrow (m :: (before ++ none :: after)) :: ps) :
    narrow (none :: after) ∈ ps := by
  rw [hps] at hmem
  refine (List.mem_cons.1 hmem).resolve_left fun he => ?_
  have hlength := congrArg List.length he
  simp only [length_narrow, List.length_append, List.length_cons] at hlength
  omega

theorem escape_wide {ms : List (Option Char)} {rest : List Char} {e : Escape}
    (h : escape true caseless (narrow ms) = .ok (e, rest))
    (hlong : ∀ before after, ms = before ++ none :: after → after.length < rest.length) :
    ∃ ms', ms' <:+ ms ∧ rest = narrow ms' ∧
      escape true caseless (wide ms) = .ok (e, wide ms') := by
  obtain ⟨p, tail, rfl, htail, hf⟩ := exists_forked ms
  obtain ⟨hs, hkeep⟩ := escape_keeps true caseless hf e rest h
  have htail := length_narrow_le htail fun after ht => hlong _ after (by rw [ht])
  obtain ⟨rest', hescape, hf'⟩ := hkeep htail
  obtain ⟨ms', hs', rfl, rfl⟩ := exists_marked hs hf'
  exact ⟨ms', hs', rfl, hescape⟩

theorem bracketItems_wide {fuel fuel' : Nat} {ms : List (Option Char)}
    (hfuel : (wide ms).length < fuel') {items : List BracketItem} {rest : List Char}
    (h : bracketItems caseless fuel 1 (narrow ms) = .ok (items, rest)) (ha : additive items = true)
    (hplaces : ∀ before after, ms = before ++ none :: after → rest.length ≤ after.length →
      narrow (none :: after) ∈ itemPlaces caseless fuel (narrow ms)) :
    ∃ items' ms', ms' <:+ ms ∧ rest = narrow ms' ∧
      bracketItems caseless fuel' 1 (wide ms) = .ok (items', wide ms') ∧ Widened items items' := by
  induction fuel generalizing fuel' ms items with
  | zero => cases h
  | succ fuel ih =>
      obtain ⟨fuel', rfl⟩ := Nat.exists_eq_add_of_le' (Nat.zero_lt_of_lt hfuel)
      cases ms with
      | nil => cases h
      | cons m ms =>
          have hnext {ps : List (List Char)}
              (hps : itemPlaces caseless (fuel + 1) (narrow (m :: ms)) = narrow (m :: ms) :: ps) :
              ∀ before after, ms = before ++ none :: after → rest.length ≤ after.length →
                narrow (none :: after) ∈ ps := by
            rintro before after rfl hl
            exact mem_itemPlaces_tail (hplaces (m :: before) after rfl hl) hps
          cases m with
          | none =>
              rw [narrow_none, bracketItems_char _ _ (by decide)] at h
              obtain ⟨⟨is, rest⟩, hitems, he⟩ := map_eq_ok_iff.1 h
              cases he
              simp only [wide_none, List.length_cons] at hfuel
              obtain ⟨fuel', rfl⟩ := Nat.exists_eq_add_of_le' (show 8 ≤ fuel' by omega)
              have hfuel₁ : (wide ms).length < fuel' := by omega
              obtain ⟨is', ms', hs, hrest, his, hw⟩ := ih hfuel₁ hitems (additive_cons.1 ha).2.2.2
                (hnext (itemPlaces_char fuel (by decide) _))
              refine ⟨_, ms', hs.trans (List.suffix_cons ..), hrest, ?_, hw.space⟩
              rw [bracketItems_run, his]
              rfl
          | some c =>
              rw [narrow_some] at h
              simp only [wide_some, List.length_cons] at hfuel
              by_cases hb : c = '\\'
              · subst hb
                rw [bracketItems_escape] at h
                obtain ⟨⟨e, rest₁⟩, hescape, h⟩ := bind_eq_ok_iff.1 h
                obtain ⟨item, hitem, h⟩ := bind_eq_ok_iff.1 h
                obtain ⟨⟨is, rest⟩, hitems, he⟩ := map_eq_ok_iff.1 h
                cases he
                have hin := hnext (itemPlaces_escape fuel hescape)
                have hrest : rest.length ≤ rest₁.length := (bracketItems_suffix hitems).length_le
                obtain ⟨ms₁, hs, rfl, hescape'⟩ := escape_wide hescape (by
                  intro before after hms
                  by_cases hl : rest.length ≤ after.length
                  · have hle := (itemPlaces_suffix _ (hin before after hms hl)).length_le
                    rwa [length_narrow, List.length_cons] at hle
                  · omega)
                have hfuel₁ : (wide ms₁).length < fuel' :=
                  Nat.lt_of_le_of_lt (length_wide_le hs) (Nat.lt_of_succ_lt_succ hfuel)
                obtain ⟨is', ms', hs', hrest, his, hw⟩ :=
                  ih hfuel₁ hitems (additive_cons.1 ha).2.2.2 (by
                    rintro before after rfl hl
                    obtain ⟨w, hw⟩ := hs
                    exact hin (w ++ before) after (by rw [← hw, List.append_assoc]) hl)
                refine ⟨item :: is', ms', (hs'.trans hs).trans (List.suffix_cons ..), hrest, ?_,
                  hw.item (escapeItem_ne_close hitem)⟩
                rw [wide_some, bracketItems_escape, hescape']
                simp only [bind, Except.bind, hitem, his]
                rfl
              by_cases hclose : c = ']'
              · subst hclose
                cases h
                exact ⟨_, ms, List.suffix_cons .., rfl, rfl, .close⟩
              by_cases hopen : c = '['
              · subst hopen
                rw [bracketItems_open] at h
                obtain ⟨⟨is, rest⟩, -, he⟩ := map_eq_ok_iff.1 h
                cases he
                exact absurd rfl (additive_cons.1 ha).1
              · have hc : c ∉ ['\\', '[', ']'] := by simp [hb, hclose, hopen]
                rw [bracketItems_char _ _ hc] at h
                obtain ⟨⟨is, rest⟩, hitems, he⟩ := map_eq_ok_iff.1 h
                cases he
                obtain ⟨is', ms', hs, hrest, his, hw⟩ :=
                  ih (Nat.lt_of_succ_lt_succ hfuel) hitems (additive_cons.1 ha).2.2.2
                    (hnext (itemPlaces_char fuel hb _))
                refine ⟨_, ms', hs.trans (List.suffix_cons ..), hrest, ?_, hw.item ?_⟩
                · rw [wide_some, bracketItems_char _ _ hc, his]
                  rfl
                · exact fun he => hclose (by cases he; rfl)

theorem isStart_bracketStart (cs : List Char) : IsStart (bracketStart cs).1 := by
  unfold bracketStart
  split
  rename_i hhat
  split at hhat
  · cases hhat
    split
    · exact .inr (.inr ⟨[.bare ']'], rfl⟩)
    · exact .inr (.inr ⟨[], rfl⟩)
  · cases hhat
    split
    · exact .inr (.inl rfl)
    · exact .inl rfl

/-- The places of the items that add to the set, after the opening bracket: none if the bracket is
negated or does more than add. -/
def memberPlaces (caseless : Bool) (cs : List Char) : List (List Char) :=
  match bracketItems caseless ((bracketStart cs).2.length + 1) 1 (bracketStart cs).2 with
  | .error _ => []
  | .ok (items, rest) =>
      if (openBracket ((bracketStart cs).1 ++ items)).1.negated = false ∧ additive items = true then
        (itemPlaces caseless ((bracketStart cs).2.length + 1) (bracketStart cs).2).filter
          (rest.length < ·.length)
      else []

theorem memberPlaces_suffix {cs : List Char} : ∀ p ∈ memberPlaces caseless cs, p <:+ cs := by
  intro p hp
  have hs : (bracketStart cs).2 <:+ cs := by
    obtain ⟨start, rest, -, hx, -, hs, -⟩ := bracketStart_forked (.refl cs)
    rwa [hx]
  unfold memberPlaces at hp
  split at hp
  · cases hp
  · split at hp
    · exact (itemPlaces_suffix p (List.mem_of_mem_filter hp)).trans hs
    · cases hp

theorem length_lt_of_mem_memberPlaces {cs rest : List Char} {e : Expression}
    (h : bracket caseless cs = .ok (e, rest)) {p : List Char} (hp : p ∈ memberPlaces caseless cs) :
    rest.length < p.length := by
  obtain ⟨start, more, hstart⟩ : ∃ start more, bracketStart cs = (start, more) := ⟨_, _, rfl⟩
  rw [bracket, hstart] at h
  obtain ⟨⟨items, rest⟩, hitems, h⟩ := bind_eq_ok_iff.1 h
  obtain ⟨⟨s, left⟩, -, h⟩ := bind_eq_ok_iff.1 h
  cases h
  rw [memberPlaces, hstart] at hp
  dsimp only at hp hitems
  rw [hitems] at hp
  dsimp only at hp
  split at hp
  · simpa using (List.mem_filter.1 hp).2
  · cases hp

theorem bracket_suffix {cs rest : List Char} {e : Expression}
    (h : bracket caseless cs = .ok (e, rest)) : rest <:+ cs :=
  (bracket_keeps caseless (.refl cs) e rest h).1

theorem bracket_wide {ms : List (Option Char)} {e : Expression} {rest : List Char}
    (h : bracket caseless (narrow ms) = .ok (e, rest)) {p : List Char}
    (hp : p ∈ memberPlaces caseless (narrow ms))
    (hplaces : ∀ before after, ms = before ++ none :: after → rest.length ≤ after.length →
      narrow (none :: after) ∈ memberPlaces caseless (narrow ms)) :
    ∃ s s' ms', e = .char s ∧ s.Within s' ∧ ms' <:+ ms ∧ rest = narrow ms' ∧
      bracket caseless (wide ms) = .ok (.char s', wide ms') := by
  obtain ⟨q, tail, rfl, -, hf⟩ := exists_forked ms
  obtain ⟨start, cs, cs', hx, hy, hs, hf'⟩ := bracketStart_forked hf
  obtain ⟨ms₁, hs₁, rfl, rfl⟩ := exists_marked hs hf'
  have hstart := isStart_bracketStart (narrow (q.map some ++ tail))
  rw [bracket, hx] at h
  obtain ⟨⟨items, rest⟩, hitems, h⟩ := bind_eq_ok_iff.1 h
  obtain ⟨⟨s, left⟩, hset, h⟩ := bind_eq_ok_iff.1 h
  cases h
  rw [memberPlaces, hx] at hp hplaces
  rw [hx] at hstart
  dsimp only at hp hplaces hitems hset hstart
  rw [hitems] at hp hplaces
  dsimp only at hp hplaces
  split at hp
  · rename_i hadd
    simp only [if_pos hadd] at hplaces
    obtain ⟨is', ms', hs', rfl, his, hw⟩ :=
      bracketItems_wide (Nat.lt_succ_self (wide ms₁).length) hitems hadd.2 (by
        rintro before after rfl hl
        obtain ⟨w, hw⟩ := hs₁
        have hmem := hplaces (w ++ before) after (by rw [← hw, List.append_assoc]) hl
        exact List.mem_of_mem_filter hmem)
    obtain ⟨rfl, s', hset', hwithin⟩ := bracketSet_widened hstart hw hadd.2 hadd.1 hset
    refine ⟨s, s', ms', rfl, hwithin, hs'.trans hs₁, rfl, ?_⟩
    rw [bracket, hy]
    simp only [bind, Except.bind, his, hset']
    rfl
  · cases hp

end Texts

end AnswerGrading.Regex
