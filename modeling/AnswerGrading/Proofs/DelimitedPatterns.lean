import AnswerGrading.Proofs.SinglePass

namespace AnswerGrading

namespace Fragment

theorem lexemes_cons {c : Char} (hc : c ≠ '\\') (cs : List Char) :
    lexemes (c :: cs) = .single c :: lexemes cs := by
  cases cs <;> simp [lexemes, hc]

theorem lexemes_flatMap_text {ls : List Lexeme} (h : Closed ls) :
    lexemes (ls.flatMap Lexeme.text) = ls := by
  rw [lexemes_flatMap fun l hl => endsLone_text (h l hl)]
  simp [lexemes_text]

theorem endsLone_eq_false_of_not_mem {cs : List Char} (h : .single '\\' ∉ lexemes cs) :
    endsLone cs = false := by
  rw [endsLone, beq_eq_false_iff_ne]
  exact fun hl => h (List.mem_of_getLast? hl)

theorem exists_of_endsLone {cs : List Char} (h : endsLone cs = true) :
    ∃ before, cs = before ++ ['\\'] ∧ endsLone before = false := by
  obtain ⟨ls, hls⟩ := List.getLast?_eq_some_iff.1 (eq_of_beq h)
  have hclosed : ∀ l ∈ ls, l ≠ .single '\\' := by
    have hc := closed_lexemes cs
    rwa [Closed, hls, List.dropLast_concat] at hc
  have hread : lexemes (ls.flatMap Lexeme.text) = ls :=
    lexemes_flatMap_text fun l hl => hclosed l (List.dropLast_subset _ hl)
  refine ⟨ls.flatMap Lexeme.text, ?_, endsLone_eq_false_of_not_mem ?_⟩
  · rw [← flatMap_text_lexemes cs, hls, List.flatMap_append]
    rfl
  · rw [hread]
    exact fun hm => hclosed _ hm rfl

theorem lexemes_anchored (cs : List Char) :
    ∃ ls close, ls <+: lexemes cs ∧ close ∈ [Lexeme.single ')', .pair ')'] ∧
      lexemes (anchored cs) =
        [.single '^', .single '(', .single '?', .single ':'] ++ ls ++ [close, .single '$'] := by
  have hopen (ds : List Char) : lexemes (['^', '(', '?', ':'] ++ ds) =
      [.single '^', .single '(', .single '?', .single ':'] ++ lexemes ds := by
    simp [lexemes_cons]
  rw [anchored, List.append_assoc, hopen]
  cases h : endsLone cs with
  | false =>
      refine ⟨lexemes cs, .single ')', List.prefix_refl _, by simp, ?_⟩
      rw [lexemes_append h, List.append_assoc]
      rfl
  | true =>
      obtain ⟨before, rfl, hb⟩ := exists_of_endsLone h
      refine ⟨lexemes before, .pair ')', ?_, by simp, ?_⟩
      · rw [lexemes_append hb]
        exact List.prefix_append _ _
      · rw [List.append_assoc, lexemes_append hb, List.append_assoc]
        rfl

def Lexeme.normalized : Lexeme → Lexeme
  | .pair '<' => .single '<'
  | .pair '>' => .single '>'
  | .single '/' => .pair '/'
  | l => l

theorem Lexeme.text_normalized (l : Lexeme) : l.normalized.text = l.normalize := by
  unfold normalized
  split
  · rfl
  · rfl
  · rfl
  · unfold normalize
    split <;> first | rfl | contradiction

theorem Lexeme.normalized_eq_lone_iff {l : Lexeme} :
    l.normalized = .single '\\' ↔ l = .single '\\' := by
  unfold normalized
  split <;> simp

theorem Lexeme.normalized_ne_slash (l : Lexeme) : l.normalized ≠ .single '/' := by
  unfold normalized
  split <;> simp_all

theorem Closed.map_normalized {ls : List Lexeme} (h : Closed ls) :
    Closed (ls.map Lexeme.normalized) := by
  intro m hm
  rw [← List.map_dropLast] at hm
  obtain ⟨l, hl, rfl⟩ := List.mem_map.1 hm
  exact fun he => h l hl (Lexeme.normalized_eq_lone_iff.1 he)

theorem lexemes_normalizeEscapes (cs : List Char) :
    lexemes (normalizeEscapes cs) = (lexemes cs).map Lexeme.normalized := by
  rw [← lexemes_flatMap_text (closed_lexemes cs).map_normalized, List.flatMap_map, normalizeEscapes]
  simp only [Lexeme.text_normalized]

theorem slash_not_mem_lexemes_body (fs : Flags) (cs : List Char) :
    .single '/' ∉ lexemes (body fs cs) := by
  rw [body, lexemes_normalizeEscapes]
  intro hm
  obtain ⟨l, -, hl⟩ := List.mem_map.1 hm
  exact l.normalized_ne_slash hl

end Fragment

/-- Every slash is escaped, and the last character is a dollar sign that is not. -/
structure Pattern.Delimitable (p : Pattern) : Prop where
  slash : .single '/' ∉ Fragment.lexemes p.text.toList
  last : (Fragment.lexemes p.text.toList).getLast? = some (.single '$')

theorem Fragment.delimitable_synthesize (fragment : String) (fs : Flags) :
    (synthesize fragment fs).Delimitable := by
  obtain ⟨ls, close, hls, hclose, htext⟩ := lexemes_anchored (body fs fragment.toList)
  rw [← toList_synthesize] at htext
  constructor
  · have hbody : .single '/' ∉ ls := fun hm => slash_not_mem_lexemes_body fs _ (hls.subset hm)
    have hbracket : .single '/' ≠ close := by
      rintro rfl
      simp at hclose
    simp [htext, hbody, hbracket]
  · rw [htext, List.getLast?_append]
    rfl

namespace Pattern

open Fragment

theorem toList_render (p : Pattern) :
    p.render.toList = '/' :: (p.text.toList ++ '/' :: p.modifiers.toList) := by
  simp [render]

theorem toList_modifiers (p : Pattern) :
    p.modifiers.toList =
      (if p.ignoreCase then ['i'] else []) ++ if p.dotAll then ['s'] else [] := by
  rw [modifiers, String.toList_append, apply_ite String.toList, apply_ite String.toList]
  rfl

theorem lexemes_modifiers (p : Pattern) :
    lexemes p.modifiers.toList = p.modifiers.toList.map .single := by
  rw [toList_modifiers]
  cases p.ignoreCase <;> cases p.dotAll <;> rfl

theorem ignoreCase_iff (p : Pattern) : p.ignoreCase = true ↔ 'i' ∈ p.modifiers.toList := by
  rw [toList_modifiers]
  cases p.ignoreCase <;> cases p.dotAll <;> decide

theorem dotAll_iff (p : Pattern) : p.dotAll = true ↔ 's' ∈ p.modifiers.toList := by
  rw [toList_modifiers]
  cases p.ignoreCase <;> cases p.dotAll <;> decide

theorem eq_of_modifiers {p q : Pattern} (ht : p.text = q.text) (hm : p.modifiers = q.modifiers) :
    p = q := by
  have hi : p.ignoreCase = q.ignoreCase := by
    rw [Bool.eq_iff_iff, ignoreCase_iff, ignoreCase_iff, hm]
  have hs : p.dotAll = q.dotAll := by
    rw [Bool.eq_iff_iff, dotAll_iff, dotAll_iff, hm]
  cases p
  cases q
  cases ht
  cases hi
  cases hs
  rfl

namespace Delimitable

variable {p q : Pattern}

theorem endsLone_text (h : p.Delimitable) : endsLone p.text.toList = false := by
  rw [endsLone, h.last]
  rfl

theorem lexemes_rest (h : p.Delimitable) :
    lexemes (p.text.toList ++ '/' :: p.modifiers.toList) =
      lexemes p.text.toList ++ .single '/' :: p.modifiers.toList.map .single := by
  rw [lexemes_append h.endsLone_text, lexemes_cons (by decide), lexemes_modifiers]

theorem forall_ne_slash (h : p.Delimitable) :
    ∀ l ∈ lexemes p.text.toList, (decide (l ≠ .single '/')) = true := by
  intro l hl
  exact decide_eq_true fun he => h.slash (he ▸ hl)

theorem takeWhile_rest (h : p.Delimitable) :
    (lexemes (p.text.toList ++ '/' :: p.modifiers.toList)).takeWhile (· ≠ .single '/') =
      lexemes p.text.toList := by
  rw [h.lexemes_rest, List.takeWhile_append_of_pos h.forall_ne_slash,
    List.takeWhile_cons_of_neg (by simp), List.append_nil]

theorem dropWhile_rest (h : p.Delimitable) :
    (lexemes (p.text.toList ++ '/' :: p.modifiers.toList)).dropWhile (· ≠ .single '/') =
      .single '/' :: p.modifiers.toList.map .single := by
  rw [h.lexemes_rest, List.dropWhile_append_of_pos h.forall_ne_slash,
    List.dropWhile_cons_of_neg (by simp)]

theorem eq_of_render (hp : p.Delimitable) (hq : q.Delimitable) (h : p.render = q.render) :
    p = q := by
  have hrest : p.text.toList ++ '/' :: p.modifiers.toList =
      q.text.toList ++ '/' :: q.modifiers.toList := by
    have hlist := congrArg String.toList h
    rw [toList_render, toList_render] at hlist
    exact List.tail_eq_of_cons_eq hlist
  have hlexemes : lexemes p.text.toList = lexemes q.text.toList := by
    rw [← hp.takeWhile_rest, hrest, hq.takeWhile_rest]
  have htext : p.text.toList = q.text.toList := by
    rw [← flatMap_text_lexemes p.text.toList, hlexemes, flatMap_text_lexemes]
  rw [htext] at hrest
  have hmodifiers := List.tail_eq_of_cons_eq (List.append_cancel_left hrest)
  exact eq_of_modifiers (String.toList_inj.1 htext) (String.toList_inj.1 hmodifiers)

end Delimitable

end Pattern

namespace Fragment

/-- In a synthesized pattern a slash is always the second half of an escape and the dollar sign at
the end never is. So the delimited form ends its text at the first slash behind the opening one that
is not escaped, and patterns of one delimited form are one pattern. -/
theorem synthesize_delimited (fragment other : String) (fs gs : Flags) :
    let p := synthesize fragment fs
    (∀ l ∈ lexemes p.text.toList, '/' ∈ l.text → l = .pair '/') ∧
    (lexemes p.text.toList).getLast? = some (.single '$') ∧
    (∃ rest, p.render.toList = '/' :: rest ∧
      (lexemes rest).takeWhile (· ≠ .single '/') = lexemes p.text.toList ∧
      (lexemes rest).dropWhile (· ≠ .single '/') =
        .single '/' :: p.modifiers.toList.map .single) ∧
    (p.render = (synthesize other gs).render ↔ p = synthesize other gs) := by
  intro p
  have hp : p.Delimitable := delimitable_synthesize fragment fs
  refine ⟨?_, hp.last, ⟨_, p.toList_render, hp.takeWhile_rest, hp.dropWhile_rest⟩, ?_⟩
  · intro l hl hm
    cases l with
    | pair c => simpa [Lexeme.text, eq_comm] using hm
    | single c =>
        rw [Lexeme.text, List.mem_singleton] at hm
        exact absurd (hm ▸ hl) hp.slash
  · exact ⟨hp.eq_of_render (delimitable_synthesize other gs), congrArg Pattern.render⟩

def loneBackslash : String := "a\\\\/(?<n\\>/\\"

theorem synthesize_delimited_loneBackslash :
    let p := synthesize loneBackslash { redirectSpace := true }
    (lexemes p.text.toList).count (.pair '/') = 2 ∧ .pair ')' ∈ lexemes p.text.toList ∧
    (∀ l ∈ lexemes p.text.toList, '/' ∈ l.text → l = .pair '/') ∧
    (lexemes p.text.toList).getLast? = some (.single '$') ∧
    p.render ≠ (synthesize loneBackslash { redirectSpace := true, dotAll := true }).render := by
  intro p
  have htext : p.text.toList = anchored (body { redirectSpace := true } loneBackslash.toList) :=
    toList_synthesize loneBackslash { redirectSpace := true }
  obtain ⟨hslash, hlast, -, hrender⟩ := synthesize_delimited loneBackslash loneBackslash
    { redirectSpace := true } { redirectSpace := true, dotAll := true }
  refine ⟨?_, ?_, hslash, hlast, ?_⟩
  · rw [htext]
    decide +kernel
  · rw [htext]
    decide +kernel
  · intro h
    have hmodes : false = true := congrArg Pattern.dotAll (hrender.1 h)
    cases hmodes

end Fragment

end AnswerGrading
