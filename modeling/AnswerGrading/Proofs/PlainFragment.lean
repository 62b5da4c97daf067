import AnswerGrading.Proofs.LiteralFragment

namespace AnswerGrading

namespace Fragment

variable {fs : Flags}

theorem lexemes_eq_map {cs : List Char} (h : '\\' ∉ cs) : lexemes cs = cs.map .single := by
  fun_induction lexemes cs with
  | case1 => rfl
  | case2 => rfl
  | case3 d cs ih => exact absurd (List.mem_cons_self ..) h
  | case4 c d cs hc ih =>
      rw [ih fun hm => h (List.mem_cons_of_mem c hm)]
      rfl

theorem singleton_mul_singleton (u v : List Char) : ({u} * {v} : Language Char) = {u ++ v} :=
  Set.image2_singleton

theorem Token.language_ofSingle (hp : fs.pipeSpace = false) (hr : fs.redirectSpace = false)
    {c : Char} (hc : c ≠ ' ') : (Token.ofSingle c).language fs = {[c]} := by
  unfold Token.ofSingle
  split
  · exact absurd rfl hc
  · simp [Token.language, hp]
  · simp [Token.language, hr]
  · simp [Token.language, hr]
  · rfl

theorem prod_tokens (hp : fs.pipeSpace = false) (hr : fs.redirectSpace = false)
    {ls : List Lexeme} (h : ∀ l ∈ ls, ∃ c, c ≠ ' ' ∧ l = .single c) :
    ((tokens ls).map (Token.language fs)).prod = {ls.flatMap Lexeme.text} := by
  have hdoubled (c : Char) : (Token.redirect c true).language fs = {[c, c]} := by
    simp [Token.language, hr]
  fun_induction tokens ls with
  | case1 => rfl
  | case2 ls ih =>
      rw [List.map_cons, List.prod_cons, hdoubled, ih fun l hl => h l (by simp [hl]),
        singleton_mul_singleton]
      rfl
  | case3 ls ih =>
      rw [List.map_cons, List.prod_cons, hdoubled, ih fun l hl => h l (by simp [hl]),
        singleton_mul_singleton]
      rfl
  | case4 c ls _ _ ih =>
      obtain ⟨d, hd, he⟩ := h _ (List.mem_cons_self ..)
      cases he
      rw [List.map_cons, List.prod_cons, Token.language_ofSingle hp hr hd,
        ih fun l hl => h l (List.mem_cons_of_mem _ hl), singleton_mul_singleton]
      rfl
  | case5 c ls ih =>
      obtain ⟨d, -, he⟩ := h _ (List.mem_cons_self ..)
      cases he

def Plain (cs : List Char) : Prop :=
  ∀ c ∈ cs, Unicode.isSpace c = false ∧ c ∉ metacharacters

instance (cs : List Char) : Decidable (Plain cs) :=
  List.decidableBAll _ cs

namespace Plain

variable {cs : List Char}

theorem lexemes (h : Plain cs) : Fragment.lexemes cs = cs.map .single := by
  apply lexemes_eq_map
  intro hm
  exact (h _ hm).2 (by decide)

theorem literal (h : Plain cs) : Literal cs := by
  intro l hl
  rw [h.lexemes] at hl
  obtain ⟨c, hc, rfl⟩ := List.mem_map.1 hl
  exact (h c hc).2

theorem language_eq (h : Plain cs) (hp : fs.pipeSpace = false) (hr : fs.redirectSpace = false) :
    language fs cs = {cs} := by
  have hsingle : ∀ l ∈ Fragment.lexemes cs, ∃ c, c ≠ ' ' ∧ l = .single c := by
    intro l hl
    rw [h.lexemes] at hl
    obtain ⟨c, hc, rfl⟩ := List.mem_map.1 hl
    refine ⟨c, ?_, rfl⟩
    rintro rfl
    exact absurd (h _ hc).1 (by decide)
  rw [language, prod_tokens hp hr hsingle, flatMap_text_lexemes]

theorem anchors {w : String} (h : Plain w.toList) (hi : fs.ignoreCase = false)
    (hp : fs.pipeSpace = false) (hr : fs.redirectSpace = false) :
    (synthesize w fs).Anchors {w.toList} := by
  have ha := anchors_synthesize h.literal hi
  rwa [h.language_eq hp hr] at ha

end Plain

end Fragment

theorem Engine.Understands.answer_eq {σ : Type} {e : Engine σ} {s : σ} {p : Pattern} {w : String}
    (he : e.Understands s p) (hp : p.Anchors {w.toList}) (subject : String) :
    (e.ask s p subject).1 = .ok (decide (subject = w)) := by
  obtain ⟨accepted, ha, hiff⟩ := he.exists_accepted hp subject
  rw [ha, Except.ok.injEq, Bool.eq_iff_iff, hiff, decide_eq_true_iff]
  exact Set.mem_singleton_iff.trans String.toList_inj

end AnswerGrading
