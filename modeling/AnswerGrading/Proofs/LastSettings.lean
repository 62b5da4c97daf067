import AnswerGrading.Proofs.KeyOrder
import AnswerGrading.Proofs.LastWrites
import AnswerGrading.Proofs.PreparedAnswers

namespace AnswerGrading

open Text

def Numeral (cs : List Char) (n : UInt32) : Prop :=
  ∃ ds, (cs = ds ∨ cs = '+' :: ds) ∧ ds ≠ [] ∧ (∀ d ∈ ds, d.isDigit = true) ∧
    Decimal.value ds = n.toNat

theorem exists_dropPlus (cs : List Char) : cs = dropPlus cs ∨ cs = '+' :: dropPlus cs := by
  unfold dropPlus
  split
  · exact .inr rfl
  · exact .inl rfl

theorem word?_eq_some_iff {cs : List Char} {n : UInt32} : word? cs = some n ↔ Numeral cs n := by
  unfold word?
  dsimp only
  constructor
  · intro h
    split at h
    · rename_i hds
      obtain ⟨hne, hdigits, hlt⟩ := hds
      cases h
      exact ⟨dropPlus cs, exists_dropPlus cs, hne, List.all_eq_true.1 hdigits,
        (UInt32.toNat_ofNat_of_lt' hlt).symm⟩
    · cases h
  · rintro ⟨ds, hcs, hne, hdigits, hvalue⟩
    have hdrop : dropPlus cs = ds := by
      rcases hcs with rfl | rfl
      · exact dropPlus_eq_self fun hm => absurd (hdigits '+' hm) (by decide)
      · rfl
    have hlt : Decimal.value ds < UInt32.size := by
      rw [hvalue]
      exact n.toNat_lt
    rw [hdrop, if_pos ⟨hne, List.all_eq_true.2 hdigits, hlt⟩, hvalue, UInt32.ofNat_toNat]

inductive SettingValue where
  | text (t : Option String)
  | number (n : Option UInt32)
  deriving DecidableEq, Repr

def Specification.setting (s : Specification) : Key → SettingValue
  | .separator => .text (some s.separator)
  | .comment => .text s.comment
  | .feedback => .text s.feedback
  | .points => .number s.points
  | .size => .number s.size

namespace Key

/-- The value is the rest of a line with the key: the text as it stands, or the number that it
writes, none when it writes none. -/
def Reads (k : Key) (rest : List Char) (v : SettingValue) : Prop :=
  match k with
  | .separator | .comment | .feedback => v = .text (some (.ofList rest))
  | .points | .size => ∃ n, v = .number n ∧ ∀ m, n = some m ↔ Numeral (trim rest) m

def valueOf (k : Key) (rest : List Char) : SettingValue :=
  match k with
  | .separator | .comment | .feedback => .text (some (.ofList rest))
  | .points | .size => .number (word? (trim rest))

theorem reads_valueOf (k : Key) (rest : List Char) : k.Reads rest (k.valueOf rest) := by
  cases k
  case points => exact ⟨_, rfl, fun _ => word?_eq_some_iff⟩
  case size => exact ⟨_, rfl, fun _ => word?_eq_some_iff⟩
  all_goals rfl

def written? (k : Key) (line : List Char) : Option SettingValue :=
  (dropOpening? k.opening line).map k.valueOf

theorem written?_opening (k : Key) (rest : List Char) :
    k.written? (k.opening ++ rest) = some (k.valueOf rest) := by
  rw [written?, dropOpening?_append, Option.map_some]

theorem written?_eq_none_iff {k : Key} {line : List Char} :
    k.written? line = none ↔ ¬k.opening <+: line := by
  rw [written?, Option.map_eq_none_iff, dropOpening?, ← List.isPrefixOf_iff_prefix]
  split <;> simp_all

theorem exists_rest_of_written? {k : Key} {line : List Char} {v : SettingValue}
    (h : k.written? line = some v) : ∃ rest, line = k.opening ++ rest ∧ v = k.valueOf rest := by
  obtain ⟨rest, hrest, rfl⟩ := Option.map_eq_some_iff.1 h
  exact ⟨rest, eq_append_of_dropOpening? hrest, rfl⟩

/-- The last line that begins with the key goes on with the text. -/
def LastLine (k : Key) (ls : List (List Char)) (rest : List Char) : Prop :=
  ∃ before after, ls = before ++ (k.opening ++ rest) :: after ∧ ∀ l ∈ after, ¬k.opening <+: l

theorem LastLine.lastWrite? {k : Key} {ls : List (List Char)} {rest : List Char}
    (h : k.LastLine ls rest) : lastWrite? k.written? ls = some (k.valueOf rest) := by
  obtain ⟨before, after, hls, hafter⟩ := h
  exact lastWrite?_eq_some_iff.2 ⟨before, _, after, hls, k.written?_opening rest,
    fun l hl => written?_eq_none_iff.2 (hafter l hl)⟩

theorem exists_lastLine {k : Key} {ls : List (List Char)} {v : SettingValue}
    (h : lastWrite? k.written? ls = some v) : ∃ rest, k.LastLine ls rest ∧ v = k.valueOf rest := by
  obtain ⟨before, line, after, rfl, hline, hafter⟩ := lastWrite?_eq_some_iff.1 h
  obtain ⟨rest, rfl, rfl⟩ := exists_rest_of_written? hline
  exact ⟨rest, ⟨before, after, rfl, fun l hl => written?_eq_none_iff.1 (hafter l hl)⟩, rfl⟩

theorem lastWrite?_congr {k : Key} {ls ms : List (List Char)}
    (h : ∀ rest, k.LastLine ms rest ↔ k.LastLine ls rest) :
    lastWrite? k.written? ms = lastWrite? k.written? ls := by
  refine Option.ext fun v => ⟨fun hv => ?_, fun hv => ?_⟩
  · obtain ⟨rest, hrest, rfl⟩ := exists_lastLine hv
    exact ((h rest).1 hrest).lastWrite?
  · obtain ⟨rest, hrest, rfl⟩ := exists_lastLine hv
    exact ((h rest).2 hrest).lastWrite?

theorem lastWrite?_filter_opening (k : Key) (ls : List (List Char)) :
    lastWrite? k.written? (ls.filter k.opening.isPrefixOf) = lastWrite? k.written? ls := by
  refine lastWrite?_filter fun l _ hl => written?_eq_none_iff.2 fun hp => ?_
  rw [List.isPrefixOf_iff_prefix.2 hp] at hl
  cases hl

theorem lastWrite?_lines_unlines (k : Key) {ls : List (List Char)} (h : ∀ l ∈ ls, '\n' ∉ l) :
    lastWrite? k.written? (lines (unlines ls)) = lastWrite? k.written? ls := by
  cases ls with
  | nil => cases k <;> rfl
  | cons l ls => rw [lines_unlines (List.cons_ne_nil l ls) h]

end Key

namespace Specification

def frame (s : Specification) : List String × Flags :=
  (s.fragments, s.flags)

theorem frame_apply (s : Specification) (l : SettingLine) : (s.apply l).frame = s.frame := by
  cases l with
  | setting k value => cases k <;> rfl
  | unknown line => rfl

theorem frame_applyAll (s : Specification) (ls : List SettingLine) :
    (s.applyAll ls).frame = s.frame := by
  induction ls generalizing s with
  | nil => rfl
  | cons l ls ih => exact (ih (s.apply l)).trans (s.frame_apply l)

theorem ext_setting {s t : Specification} (hf : s.frame = t.frame)
    (h : ∀ k, s.setting k = t.setting k) : s = t := by
  cases s
  cases t
  have hseparator := h .separator
  have hcomment := h .comment
  have hfeedback := h .feedback
  have hpoints := h .points
  have hsize := h .size
  simp_all [frame, fragments, setting]

theorem setting_set (s : Specification) (rest : List Char) (j k : Key) :
    (s.set rest j).setting k = if j = k then k.valueOf rest else s.setting k := by
  cases j <;> cases k <;> rfl

theorem setting_apply_read (s : Specification) (k : Key) (line : List Char) :
    (s.apply (SettingLine.read line)).setting k = (k.written? line).getD (s.setting k) := by
  cases hread : SettingLine.read line with
  | unknown l =>
      rw [Key.written?_eq_none_iff.2 (Key.not_opens_of_read hread)]
      rfl
  | setting j rest =>
      rw [apply, setting_set]
      by_cases h : j = k
      · subst h
        rw [if_pos rfl, SettingLine.eq_of_read hread, Key.written?_opening, Option.getD_some]
      · have hk : ¬k.opening <+: line := fun hk => h ((Key.opens_iff_of_read hread).1 hk).symm
        rw [if_neg h, Key.written?_eq_none_iff.2 hk, Option.getD_none]

theorem applyAll_readLines (s : Specification) (ls : List (List Char)) :
    s.applyAll (SettingLine.readLines ls) =
      ls.foldl (fun s l => s.apply (SettingLine.read l)) s := by
  induction ls generalizing s with
  | nil => rfl
  | cons l ls ih =>
      rw [List.foldl_cons, ← ih, SettingLine.readLines]
      by_cases hb : trim l = []
      · rw [List.filter_cons_of_neg (by simp [hb]), SettingLine.read_of_blank hb]
        rfl
      · rw [List.filter_cons_of_pos (by simpa using hb)]
        rfl

theorem setting_applyAll_readAll (s : Specification) (k : Key) (block : List Char) :
    (s.applyAll (SettingLine.readAll block)).setting k =
      (lastWrite? k.written? (lines block)).getD (s.setting k) := by
  rw [SettingLine.readAll_eq, applyAll_readLines]
  exact foldl_lastWrite? (fun s => s.setting k) (fun s l => s.setting_apply_read k l) s _

theorem applyAll_readAll_congr (s : Specification) {block other : List Char}
    (h : ∀ k : Key, lastWrite? k.written? (lines other) = lastWrite? k.written? (lines block)) :
    s.applyAll (SettingLine.readAll other) = s.applyAll (SettingLine.readAll block) := by
  refine ext_setting ?_ fun k => ?_
  · rw [frame_applyAll, frame_applyAll]
  · rw [setting_applyAll_readAll, setting_applyAll_readAll, h]

/-- A block gives every key the value of the last line that begins with it and changes nothing else,
so that only these last lines count: a line can go if it has no key or its key comes again further
down, and lines can change places as long as those of each key stay in order. -/
theorem applyAll_lastLine (s : Specification) (block : List Char) :
    let t := s.applyAll (SettingLine.readAll block)
    (∀ (k : Key) (rest : List Char), k.LastLine (lines block) rest → k.Reads rest (t.setting k)) ∧
    (∀ k : Key, (∀ l ∈ lines block, ¬k.opening <+: l) → t.setting k = s.setting k) ∧
    (t.fragments = s.fragments ∧ t.flags = s.flags) ∧
    (∀ other : List Char,
      (∀ (k : Key) (rest : List Char),
        k.LastLine (lines other) rest ↔ k.LastLine (lines block) rest) →
      s.applyAll (SettingLine.readAll other) = t) ∧
    (∀ (before : List (List Char)) (l : List Char) (after : List (List Char)),
      lines block = before ++ l :: after →
      (∀ k : Key, k.opening <+: l → ∃ m ∈ after, k.opening <+: m) →
      s.applyAll (SettingLine.readAll (unlines (before ++ after))) = t) ∧
    (∀ ls : List (List Char), ls.Perm (lines block) →
      (∀ k : Key, ls.filter k.opening.isPrefixOf = (lines block).filter k.opening.isPrefixOf) →
      s.applyAll (SettingLine.readAll (unlines ls)) = t) := by
  intro t
  refine ⟨?_, ?_, ?_, ?_, ?_, ?_⟩
  · intro k rest hlast
    rw [setting_applyAll_readAll, hlast.lastWrite?, Option.getD_some]
    exact k.reads_valueOf rest
  · intro k hnone
    have hlast : lastWrite? k.written? (lines block) = none :=
      lastWrite?_eq_none_iff.2 fun l hl => Key.written?_eq_none_iff.2 (hnone l hl)
    rw [setting_applyAll_readAll, hlast, Option.getD_none]
  · have hframe := s.frame_applyAll (SettingLine.readAll block)
    exact ⟨congrArg Prod.fst hframe, congrArg Prod.snd hframe⟩
  · intro other h
    exact s.applyAll_readAll_congr fun k => Key.lastWrite?_congr (h k)
  · intro before l after hlines h
    have hkept : ∀ m ∈ before ++ after, '\n' ∉ m := by
      intro m hm
      refine newline_not_mem_lines (hlines ▸ ?_ : m ∈ lines block)
      exact (List.Sublist.append_left (List.sublist_cons_self l after) before).subset hm
    refine s.applyAll_readAll_congr fun k => ?_
    rw [Key.lastWrite?_lines_unlines k hkept, hlines]
    refine lastWrite?_delete ?_
    by_cases hk : k.opening <+: l
    · obtain ⟨m, hm, hmk⟩ := h k hk
      exact .inr ⟨m, hm, fun hw => Key.written?_eq_none_iff.1 hw hmk⟩
    · exact .inl (Key.written?_eq_none_iff.2 hk)
  · intro ls hperm hfilter
    refine s.applyAll_readAll_congr fun k => ?_
    rw [Key.lastWrite?_lines_unlines k fun m hm => newline_not_mem_lines (hperm.subset hm),
      ← Key.lastWrite?_filter_opening k ls, hfilter k, Key.lastWrite?_filter_opening]

def replacedPoints : List Char :=
  "points=3\n size=4\nseparator= ,\npoints=-1\nnote\nseparator=, ".toList

def replacedLines : List (List Char) :=
  ["points=3".toList, " size=4".toList, "separator= ,".toList, "points=-1".toList, "note".toList,
    "separator=, ".toList]

theorem lines_replacedPoints : lines replacedPoints = replacedLines := by
  decide

theorem lines_newline_replacedPoints : lines ('\n' :: replacedPoints) = [] :: replacedLines := by
  decide

def otherOrder : List (List Char) :=
  ["separator= ,".toList, "note".toList, "points=3".toList, "separator=, ".toList,
    "points=-1".toList, " size=4".toList]

/-- The second line with points takes back the number of the first. -/
theorem applyAll_lastLine_replacedPoints :
    let s : Specification := { first := "a", others := ["b"], flags := {}, size := some 7 }
    let t := s.applyAll (SettingLine.readAll replacedPoints)
    (Key.points.LastLine replacedLines "-1".toList ∧
      Key.points.Reads "-1".toList (t.setting .points) ∧ t.points = none) ∧
    ((∀ l ∈ replacedLines, ¬Key.size.opening <+: l) ∧ t.setting .size = s.setting .size) ∧
    ((∀ (k : Key) (rest : List Char),
        k.LastLine ([] :: replacedLines) rest ↔ k.LastLine replacedLines rest) ∧
      s.applyAll (SettingLine.readAll ('\n' :: replacedPoints)) = t) ∧
    s.applyAll (SettingLine.readAll (unlines replacedLines.tail)) = t ∧
    otherOrder.Perm replacedLines ∧ s.applyAll (SettingLine.readAll (unlines otherOrder)) = t := by
  intro s t
  obtain ⟨hlast, hkept, -, hother, hdelete, hreorder⟩ := s.applyAll_lastLine replacedPoints
  rw [lines_replacedPoints] at hlast hkept hother hdelete hreorder
  have hpoints : Key.points.LastLine replacedLines "-1".toList :=
    ⟨replacedLines.take 3, replacedLines.drop 4, by decide, by simp [replacedLines, Key.opening]⟩
  have hsize : ∀ l ∈ replacedLines, ¬Key.size.opening <+: l := by
    simp [replacedLines, Key.opening]
  have hblank (k : Key) (rest : List Char) :
      k.LastLine ([] :: replacedLines) rest ↔ k.LastLine replacedLines rest := by
    constructor
    · rintro ⟨_ | ⟨l, before⟩, after, hlines, hafter⟩
      · cases k <;> cases hlines
      · exact ⟨before, after, List.tail_eq_of_cons_eq hlines, hafter⟩
    · rintro ⟨before, after, hlines, hafter⟩
      exact ⟨[] :: before, after, congrArg ([] :: ·) hlines, hafter⟩
  have horder : otherOrder.Perm replacedLines := by decide
  refine ⟨⟨hpoints, hlast _ _ hpoints, by decide⟩, ⟨hsize, hkept _ hsize⟩, ⟨hblank, ?_⟩, ?_,
    horder, ?_⟩
  · refine hother _ fun k rest => ?_
    rw [lines_newline_replacedPoints]
    exact hblank k rest
  · refine hdelete [] "points=3".toList _ rfl fun k hk => ?_
    obtain rfl : k = .points := by
      revert hk
      cases k <;> decide
    exact ⟨"points=-1".toList, by decide, by decide⟩
  · refine hreorder _ horder fun k => ?_
    cases k <;> decide

end Specification

end AnswerGrading
