import AnswerGrading.Proofs.Sections
import Mathlib.Data.List.Perm.Basic

/-!
Specifications written out and read back. Fragments may hold brackets, slashes and halves of markers:
as long as none holds a whole marker or gap, every part of the text is found where it was put.
-/

namespace AnswerGrading

structure Draft where
  first : String
  others : List String
  flags : Flags
  separator : Option String := none
  comment : Option String := none
  feedback : Option String := none
  points : Option UInt32 := none
  size : Option UInt32 := none
  deriving DecidableEq, Repr

namespace Draft

def fragments (d : Draft) : List String :=
  d.first :: d.others

def last (d : Draft) : String :=
  (d.first :: d.others).getLast (List.cons_ne_nil d.first d.others)

def value? (d : Draft) : Key → Option (List Char)
  | .separator => d.separator.map String.toList
  | .comment => d.comment.map String.toList
  | .feedback => d.feedback.map String.toList
  | .points => d.points.map fun n => Decimal.digits n.toNat
  | .size => d.size.map fun n => Decimal.digits n.toNat

def settings (d : Draft) (order : List Key) : List (Key × List Char) :=
  order.filterMap fun k => (d.value? k).map fun v => (k, v)

end Draft

def settingLines (ss : List (Key × List Char)) : List Char :=
  ss.flatMap fun s => '\n' :: (s.1.opening ++ s.2)

namespace Draft

def text (d : Draft) (order : List Key) : String :=
  .ofList (enclosed (d.fragments.map String.toList) ++ d.flags.render ++
    settingLines (d.settings order))

def specification (d : Draft) : Specification where
  first := d.first
  others := d.others
  flags := d.flags
  separator := d.separator.getD "\n"
  comment := d.comment
  feedback := d.feedback
  points := d.points
  size := d.size

structure WellFormed (d : Draft) : Prop where
  noReturn : ∀ f ∈ d.fragments, '\r' ∉ f.toList
  noMarker : ∀ f ∈ d.fragments, ¬HasMarker f.toList
  noGap : ∀ f ∈ d.fragments, ¬HasGap f.toList
  lastChar : ∀ c ∈ d.last.toList.getLast?, Unicode.isSpace c = false
  oneLine : ∀ t ∈ [d.separator, d.comment, d.feedback], ∀ s ∈ t,
    '\r' ∉ s.toList ∧ '\n' ∉ s.toList

theorem WellFormed.value {d : Draft} (h : d.WellFormed) {k : Key} {v : List Char}
    (hv : d.value? k = some v) : '\r' ∉ v ∧ '\n' ∉ v := by
  have hdigits (n : UInt32) : '\r' ∉ Decimal.digits n.toNat ∧ '\n' ∉ Decimal.digits n.toNat :=
    ⟨fun hm => absurd (Decimal.isDigit_of_mem_digits hm) (by decide),
      fun hm => absurd (Decimal.isDigit_of_mem_digits hm) (by decide)⟩
  have hone := h.oneLine
  simp only [List.mem_cons, List.not_mem_nil, or_false] at hone
  cases k <;> obtain ⟨t, ht, rfl⟩ := Option.map_eq_some_iff.1 hv
  · exact hone d.separator (.inl rfl) t ht
  · exact hone d.comment (.inr (.inl rfl)) t ht
  · exact hone d.feedback (.inr (.inr rfl)) t ht
  · exact hdigits t
  · exact hdigits t

theorem WellFormed.settings {d : Draft} (h : d.WellFormed) {order : List Key}
    {s : Key × List Char} (hs : s ∈ d.settings order) : '\r' ∉ s.2 ∧ '\n' ∉ s.2 := by
  obtain ⟨k, -, hk⟩ := List.mem_filterMap.1 hs
  obtain ⟨v, hv, rfl⟩ := Option.map_eq_some_iff.1 hk
  exact h.value hv

end Draft

theorem lines_append_flatMap {α : Type} {f : α → List Char} {xs : List α}
    (h : ∀ x ∈ xs, '\n' ∉ f x) {l : List Char} (hl : '\n' ∉ l) :
    Text.lines (l ++ xs.flatMap fun x => '\n' :: f x) = l :: xs.map f := by
  induction xs generalizing l with
  | nil => simpa using Text.lines_eq_self hl
  | cons x xs ih =>
      have hx := ih (fun y hy => h y (List.mem_cons_of_mem _ hy)) (h x (List.mem_cons_self ..))
      rw [List.flatMap_cons, List.cons_append, Text.lines_append_newline hl, hx, List.map_cons]

theorem newline_not_mem_opening (k : Key) : '\n' ∉ k.opening := by
  cases k <;> decide

theorem return_not_mem_opening (k : Key) : '\r' ∉ k.opening := by
  cases k <;> decide

theorem trim_opening_ne_nil (k : Key) (value : List Char) :
    Text.trim (k.opening ++ value) ≠ [] := by
  cases k <;> exact Text.trimBy_cons_ne_nil (by decide) _

theorem readAll_settingLines {ss : List (Key × List Char)} (h : ∀ s ∈ ss, '\n' ∉ s.2) :
    SettingLine.readAll (settingLines ss) = ss.map fun s => .setting s.1 s.2 := by
  have hl := lines_append_flatMap (f := fun s : Key × List Char => s.1.opening ++ s.2)
    (fun s hs hm => (List.mem_append.1 hm).elim (newline_not_mem_opening s.1) (h s hs))
    (l := []) (by simp)
  rw [List.nil_append] at hl
  rw [SettingLine.readAll, settingLines, hl, List.filter_cons_of_neg (by simp [Text.trim,
    Text.trimBy, Text.dropEndWhile]), List.filter_eq_self.2, List.map_map]
  · exact List.map_congr_left fun s _ => SettingLine.read_opening s.1 s.2
  · intro l hm
    obtain ⟨s, -, rfl⟩ := List.mem_map.1 hm
    simpa using trim_opening_ne_nil s.1 s.2

namespace Specification

theorem applyAll_settings (s : Specification) (ss : List (Key × List Char)) :
    s.applyAll (ss.map fun x => .setting x.1 x.2) = ss.foldl (fun s x => s.set x.2 x.1) s := by
  rw [applyAll, List.foldl_map]
  rfl

theorem set_set_comm (s : Specification) {j k : Key} (h : j ≠ k) (v w : List Char) :
    (s.set v j).set w k = (s.set w k).set v j := by
  cases j <;> cases k <;> first | rfl | exact absurd rfl h

end Specification

namespace Draft

def setInto (d : Draft) (s : Specification) (k : Key) : Specification :=
  match d.value? k with
  | some v => s.set v k
  | none => s

instance (d : Draft) : RightCommutative d.setInto where
  right_comm s j k := by
    by_cases h : j = k
    · rw [h]
    · unfold setInto
      split <;> split <;> first | rfl | exact s.set_set_comm h _ _

theorem foldl_settings (d : Draft) (s : Specification) (order : List Key) :
    (d.settings order).foldl (fun s x => s.set x.2 x.1) s = order.foldl d.setInto s := by
  induction order generalizing s with
  | nil => rfl
  | cons k ks ih =>
      unfold settings at ih ⊢
      rw [List.filterMap_cons, List.foldl_cons, setInto]
      cases d.value? k with
      | none => exact ih s
      | some v => exact ih (s.set v k)

def bare (d : Draft) : Specification where
  first := d.first
  others := d.others
  flags := d.flags

theorem foldl_all (d : Draft) : Key.all.foldl d.setInto d.bare = d.specification := by
  obtain ⟨first, others, flags, separator, comment, feedback, points, size⟩ := d
  have hword (n : UInt32) : word? (Text.trim (Decimal.digits n.toNat)) = some n := by
    rw [trim_digits, word?_digits]
  cases separator <;> cases comment <;> cases feedback <;> cases points <;> cases size <;>
    simp [Key.all, setInto, value?, bare, specification, Specification.set, hword]

theorem foldl_order (d : Draft) {order : List Key} (h : order.Perm Key.all) :
    order.foldl d.setInto d.bare = d.specification :=
  (h.foldl_eq d.bare).trans d.foldl_all

/-- The fragments with brackets, less the closing ones that belong to the marker. -/
def front (d : Draft) : List Char :=
  '[' :: '[' :: (d.first.toList ++ gapped (d.others.map String.toList))

theorem toList_text (d : Draft) (order : List Key) :
    (d.text order).toList = d.front ++ (markerText [] (Flag.all.map d.flags.letterFor) ++
      settingLines (d.settings order)) := by
  simp [text, fragments, enclosed_cons, front, Flags.render, markerText, closing]

theorem WellFormed.lastChar_map {d : Draft} (h : d.WellFormed) :
    ∀ c ∈ ((d.first.toList :: d.others.map String.toList).getLast
      (List.cons_ne_nil _ _)).getLast?, Unicode.isSpace c = false := by
  have hlast : (d.first.toList :: d.others.map String.toList).getLast (List.cons_ne_nil _ _) =
      d.last.toList :=
    List.getLast_map (f := String.toList) (l := d.first :: d.others) (List.cons_ne_nil _ _)
  rw [hlast]
  exact h.lastChar

theorem letters_letterFor (fs : Flags) : Letters (Flag.all.map fs.letterFor) := by
  intro c hc
  obtain ⟨f, -, rfl⟩ := List.mem_map.1 hc
  unfold Flags.letterFor
  cases f <;> split <;> decide

theorem WellFormed.return_not_mem_front {d : Draft} (h : d.WellFormed) : '\r' ∉ d.front := by
  have hfirst := h.noReturn d.first (List.mem_cons_self ..)
  have hothers : '\r' ∉ gapped (d.others.map String.toList) :=
    return_not_mem_gapped (List.forall_mem_map.2 fun t ht => h.noReturn t (List.mem_cons_of_mem _ ht))
  simp [front, hfirst, hothers]

theorem WellFormed.return_not_mem_settings {d : Draft} (h : d.WellFormed) (order : List Key) :
    '\r' ∉ settingLines (d.settings order) := by
  intro hm
  obtain ⟨s, hs, hm⟩ := List.mem_flatMap.1 hm
  rcases List.mem_cons.1 hm with hm | hm
  · cases hm
  · exact (List.mem_append.1 hm).elim (return_not_mem_opening s.1) (h.settings hs).1

theorem WellFormed.return_not_mem_text {d : Draft} (h : d.WellFormed) (order : List Key) :
    '\r' ∉ (d.text order).toList := by
  have hletters : '\r' ∉ Flag.all.map d.flags.letterFor := fun hm =>
    absurd (letters_letterFor d.flags _ hm) (by decide)
  have hmarker : '\r' ∉ markerText [] (Flag.all.map d.flags.letterFor) := by
    simpa [markerText, closing] using hletters
  rw [toList_text, List.mem_append, List.mem_append, not_or, not_or]
  exact ⟨h.return_not_mem_front, hmarker, h.return_not_mem_settings order⟩

theorem inForm?_text {d : Draft} (h : d.WellFormed) (order : List Key) :
    Sections.inForm? (d.text order).toList .current = some ⟨d.first.toList,
      d.others.map String.toList, Flag.all.map d.flags.letterFor,
      settingLines (d.settings order)⟩ := by
  have hm : ∀ f ∈ d.first.toList :: d.others.map String.toList, ¬HasMarker f :=
    List.forall_mem_map (f := String.toList) (P := fun f => ¬HasMarker f) |>.2 h.noMarker
  have hg : ∀ f ∈ d.first.toList :: d.others.map String.toList, ¬HasGap f :=
    List.forall_mem_map (f := String.toList) (P := fun f => ¬HasGap f) |>.2 h.noGap
  have htext : (d.text order).toList = enclosed (d.first.toList :: d.others.map String.toList) ++
      '/' :: (Flag.all.map d.flags.letterFor ++ '/' :: settingLines (d.settings order)) := by
    simp [text, fragments, Flags.render]
  rw [Sections.inForm?, Text.withoutReturns_eq_self (h.return_not_mem_text order), htext]
  exact current?_enclosed hm hg h.lastChar_map (letters_letterFor d.flags) _

end Draft

namespace Specification

open Draft

/-- A draft written out is read as the specification it was meant to be, in whatever order its
settings stand. -/
theorem parse_text {d : Draft} (h : d.WellFormed) {order : List Key}
    (ho : order.Perm Key.all) : parse (d.text order) = d.specification := by
  have hsettings : ∀ s ∈ d.settings order, '\n' ∉ s.2 := fun s hs => (h.settings hs).2
  refine parse_of_current ?_
  rw [inForm, inForm?_text h order]
  simp only [ofSections, readAll_settingLines hsettings, flagsOf, Flags.ofOptions_letters]
  rw [applyAll_settings, foldl_settings, ← d.foldl_order ho]
  simp [bare, Function.comp_def]

def bracketDraft : Draft where
  first := "]] /ab]"
  others := ["[[x]]", "", "/I/ ] ]/[["]
  flags := { ignoreCase := true, trimSpaces := false }
  separator := some " ,"
  feedback := some "points=1"
  points := some 4294967295
  size := some 0

theorem bracketDraft_wellFormed : bracketDraft.WellFormed where
  noReturn := by decide
  noMarker := by decide
  noGap := by decide
  lastChar c hc := by
    have hl : bracketDraft.last.toList.getLast? = some '[' := by decide
    obtain rfl : '[' = c := Option.some.inj (hl.symm.trans hc)
    decide
  oneLine := by decide

theorem parse_text_bracketDraft :
    bracketDraft.WellFormed ∧ Key.all.reverse.Perm Key.all ∧
      parse (bracketDraft.text Key.all.reverse) = bracketDraft.specification :=
  have ho : Key.all.reverse.Perm Key.all := List.reverse_perm Key.all
  ⟨bracketDraft_wellFormed, ho, parse_text bracketDraft_wellFormed ho⟩

end Specification

end AnswerGrading
