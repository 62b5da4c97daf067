import AnswerGrading.Grading.Scoring
import AnswerGrading.Proofs.OlderForm
import AnswerGrading.Proofs.PreparedAnswers

namespace AnswerGrading

namespace Text

theorem consHead_append (c : Char) {ls : List (List Char)} (h : ls ≠ []) (ms : List (List Char)) :
    consHead c (ls ++ ms) = consHead c ls ++ ms := by
  cases ls with
  | nil => contradiction
  | cons l ls => rfl

theorem lines_append (cs ds : List Char) : lines (cs ++ '\n' :: ds) = lines cs ++ lines ds := by
  induction cs with
  | nil => rfl
  | cons c cs ih =>
      rw [List.cons_append, lines, lines, ih]
      split
      · rfl
      · exact consHead_append c (lines_ne_nil cs) _

theorem lines_append_of_not_mem {tail : List Char} (h : '\n' ∉ tail) (cs : List Char) :
    ∃ init last, lines cs = init ++ [last] ∧ lines (cs ++ tail) = init ++ [last ++ tail] := by
  induction cs with
  | nil => exact ⟨[], [], rfl, lines_eq_self h⟩
  | cons c cs ih =>
      obtain ⟨init, last, hcs, htail⟩ := ih
      rw [List.cons_append, lines, lines, hcs, htail]
      split
      · exact ⟨[] :: init, last, rfl, rfl⟩
      · cases init with
        | nil => exact ⟨[], c :: last, rfl, rfl⟩
        | cons l init => exact ⟨(c :: l) :: init, last, rfl, rfl⟩

theorem dropEndWhile_append_cons {p : Char → Bool} {c : Char} (hc : p c = false)
    (cs ds : List Char) : dropEndWhile p (cs ++ c :: ds) = cs ++ c :: dropEndWhile p ds := by
  rw [dropEndWhile, dropEndWhile, List.reverse_append, List.reverse_cons, List.append_assoc,
    List.singleton_append, List.dropWhile_append]
  split
  · rename_i hnil
    rw [List.isEmpty_iff.1 hnil, List.dropWhile_cons_of_neg (by simp [hc])]
    simp
  · simp

theorem firstLine_append_of_not_mem {cs : List Char} (h : '\n' ∉ cs) (rest : List Char) :
    firstLine (cs ++ rest) = (cs ++ (firstLine rest).1, (firstLine rest).2) := by
  have hne : ∀ c ∈ cs, (c != '\n') = true := by
    intro c hc
    simpa using fun he : c = '\n' => h (he ▸ hc)
  rw [firstLine, List.takeWhile_append_of_pos hne, List.dropWhile_append_of_pos hne]
  rfl

theorem firstLine_of_not_mem {l : List Char} (h : '\n' ∉ l) : firstLine l = (l, []) := by
  have hfirst := firstLine_append_of_not_mem h []
  rw [List.append_nil] at hfirst
  simpa [firstLine] using hfirst

theorem firstLine_append {l : List Char} (h : '\n' ∉ l) (cs : List Char) :
    firstLine (l ++ '\n' :: cs) = (l, cs) := by
  rw [firstLine_append_of_not_mem h]
  simp [firstLine]

theorem firstLine_append_of_mem {cs : List Char} (h : '\n' ∈ cs) (rest : List Char) :
    firstLine (cs ++ rest) = ((firstLine cs).1, (firstLine cs).2 ++ rest) := by
  obtain ⟨l, m, rfl, hl⟩ := List.eq_append_cons_of_mem h
  rw [List.append_assoc, List.cons_append, firstLine_append hl, firstLine_append hl]

end Text

theorem StartsNone.closing {head rest : List Char} (h : StartsNone MarkerTail head (closing rest))
    (other : List Char) : StartsNone MarkerTail head (closing other) := by
  rintro before after he ha ⟨tail, found, ht, hs⟩
  obtain ⟨more, rfl⟩ := exists_append_of_closing ha ht.ne_nil ht.closing_not_mem hs
  exact h before _ he ha ⟨tail, more ++ AnswerGrading.closing rest, ht, by simp⟩

theorem MarkedAfter.append {cs head ws letters block : List Char}
    (h : MarkedAfter cs head ws letters block) (rest : List Char) :
    MarkedAfter (cs ++ rest) head ws letters (block ++ rest) where
  spaces := h.spaces
  alphabetic := h.alphabetic
  text := by rw [h.text, List.append_assoc, List.append_assoc]
  earliest := by
    have hearliest := h.earliest
    rw [markerText_append] at hearliest ⊢
    exact hearliest.closing _

theorem current?_append {cs : List Char} {s : Sections} (h : Sections.current? cs = some s)
    (rest : List Char) :
    Sections.current? (cs ++ rest) = some { s with block := s.block ++ rest } := by
  obtain ⟨head, ws, hm, hc⟩ := current?_eq_some_iff.1 h
  exact current?_eq_some_iff.2 ⟨head, ws, hm.append rest, hc⟩

theorem marker?_of_ne {c : Char} (h : c ≠ ']') (cs : List Char) : marker? (c :: cs) = none := by
  have hclosing : afterClosing? (c :: cs) = none := by
    unfold afterClosing?
    split
    · rename_i he
      cases he
      contradiction
    · rfl
  rw [marker?, hclosing]

theorem firstMarker?_append_of_not_mem {text : List Char} (h : ']' ∉ text) (rest : List Char) :
    firstMarker? (text ++ rest) =
      (firstMarker? rest).map fun (head, found) => (text ++ head, found) := by
  induction text with
  | nil => simp
  | cons c text ih =>
      have hc : c ≠ ']' := fun he => h (he ▸ List.mem_cons_self ..)
      rw [List.cons_append, firstMarker?_of_none (marker?_of_ne hc _),
        ih fun hm => h (List.mem_cons_of_mem _ hm), Option.map_map]
      rfl

def commentLine (c : List Char) : List Char :=
  Key.comment.opening ++ c

theorem dropWhile_append_of_ne_nil {p : Char → Bool} {cs : List Char} (h : cs.dropWhile p ≠ [])
    (ds : List Char) : (cs ++ ds).dropWhile p = cs.dropWhile p ++ ds := by
  rw [List.dropWhile_append, if_neg]
  rwa [List.isEmpty_iff]

theorem dropWhile_append_of_nil {p : Char → Bool} {cs : List Char} (h : cs.dropWhile p = [])
    (ds : List Char) : (cs ++ ds).dropWhile p = ds.dropWhile p := by
  rw [List.dropWhile_append, if_pos]
  rwa [List.isEmpty_iff]

theorem afterClosing?_singleton (a : Char) : afterClosing? [a] = none := by
  unfold afterClosing?
  split
  · rename_i he
    cases he
  · rfl

theorem afterClosing?_of_ne {a b : Char} (h : ¬(a = ']' ∧ b = ']')) (cs : List Char) :
    afterClosing? (a :: b :: cs) = none := by
  unfold afterClosing?
  split
  · rename_i he
    cases he
    exact absurd ⟨rfl, rfl⟩ h
  · rfl

theorem afterClosing?_append_comment {cs : List Char} (hcs : cs ≠ []) (c : List Char) :
    afterClosing? (cs ++ '\n' :: commentLine c) = (afterClosing? cs).map fun rest =>
      if rest = [] then commentLine c else rest ++ '\n' :: commentLine c := by
  match cs, hcs with
  | [a], _ =>
      rw [afterClosing?_singleton, List.singleton_append, afterClosing?_of_ne (by simp),
        Option.map_none]
  | a :: b :: cs, _ =>
      by_cases hab : a = ']' ∧ b = ']'
      · obtain ⟨rfl, rfl⟩ := hab
        simp only [List.cons_append, afterClosing?, Option.map_some, Option.some.injEq]
        -- the white space ends at the latest with the line, as a comment starts with none
        split
        · rename_i hspace
          rw [dropWhile_append_of_nil hspace]
          rfl
        · rename_i hspace
          rw [dropWhile_append_of_ne_nil hspace]
      · rw [List.cons_append, List.cons_append, afterClosing?_of_ne hab, afterClosing?_of_ne hab,
          Option.map_none]

theorem marker?_append_comment {cs : List Char} (hcs : cs ≠ []) (h : marker? cs = none)
    (c : List Char) : marker? (cs ++ '\n' :: commentLine c) = none := by
  unfold marker? at h ⊢
  rw [afterClosing?_append_comment hcs]
  cases hclosing : afterClosing? cs with
  | none => rfl
  | some rest =>
      rw [hclosing] at h
      cases rest with
      | nil => rfl
      | cons d ds =>
          by_cases hd : d = '/'
          · subst hd
            simp only [Option.map_some, List.cons_append, reduceCtorEq, if_false] at h ⊢
            -- the letters, too, end with the line or before it
            cases hletters : ds.dropWhile Char.isAlpha with
            | nil =>
                rw [dropWhile_append_of_nil hletters]
                rfl
            | cons e es =>
                rw [dropWhile_append_of_ne_nil (by simp [hletters]), hletters]
                rw [hletters] at h
                by_cases he : e = '/'
                · subst he
                  cases h
                · simp [he]
          · simp [hd]

/-- Above a comment there is a marker only where there was one, and the first one in the comment is
found behind all of the text. -/
theorem firstMarker?_append_comment {cs : List Char} (h : ¬HasMarker cs) (c : List Char) :
    firstMarker? (cs ++ '\n' :: commentLine c) =
      (firstMarker? c).map fun (head, found) => (cs ++ '\n' :: commentLine head, found) := by
  induction cs with
  | nil =>
      have hline : ']' ∉ '\n' :: Key.comment.opening := by decide
      exact firstMarker?_append_of_not_mem hline c
  | cons d cs ih =>
      rw [HasMarker, holds_cons_iff, not_or, ← marker?_eq_none_iff] at h
      have hd := marker?_append_comment (List.cons_ne_nil d cs) h.1 c
      rw [List.cons_append] at hd ⊢
      rw [firstMarker?_of_none hd, ih h.2, Option.map_map]
      rfl

theorem hasMarker_append_comment {cs : List Char} (h : ¬HasMarker cs) {c : List Char} :
    HasMarker (cs ++ '\n' :: commentLine c) ↔ HasMarker c := by
  rw [← not_iff_not, ← firstMarker?_eq_none_iff, ← firstMarker?_eq_none_iff,
    firstMarker?_append_comment h, Option.map_eq_none_iff]

namespace Text

/-- The white space at the end of the last line that holds more than that. -/
def lineEndSpace (cs : List Char) : List Char :=
  (takeEndWhile Unicode.isSpace cs).takeWhile (· != '\n')

theorem exists_trim_eq {cs : List Char} (h : trim cs ≠ []) :
    ∃ left front last, (∀ c ∈ left, Unicode.isSpace c = true) ∧ Unicode.isSpace last = false ∧
      trim cs = front ++ [last] ∧ (∀ c ∈ (front ++ [last]).head?, Unicode.isSpace c = false) ∧
      cs = left ++ (front ++ last :: takeEndWhile Unicode.isSpace cs) := by
  have htrim := List.dropLast_concat_getLast h
  have hlast : Unicode.isSpace ((trim cs).getLast h) = false :=
    Bool.eq_false_iff.2 (List.rdropWhile_last_not Unicode.isSpace _ h)
  generalize (trim cs).dropLast = front at htrim
  generalize (trim cs).getLast h = last at htrim hlast
  have hrest : front ++ last :: takeEndWhile Unicode.isSpace (cs.dropWhile Unicode.isSpace) =
      cs.dropWhile Unicode.isSpace := by
    have hd := dropEndWhile_append_takeEndWhile Unicode.isSpace (cs.dropWhile Unicode.isSpace)
    change trim cs ++ _ = _ at hd
    rwa [← htrim, List.append_assoc, List.singleton_append] at hd
  have hcs : cs = cs.takeWhile Unicode.isSpace ++
      (front ++ last :: takeEndWhile Unicode.isSpace (cs.dropWhile Unicode.isSpace)) := by
    rw [hrest, List.takeWhile_append_dropWhile]
  have hend : takeEndWhile Unicode.isSpace cs =
      takeEndWhile Unicode.isSpace (cs.dropWhile Unicode.isSpace) := by
    conv_lhs => rw [hcs, ← List.append_assoc]
    exact takeEndWhile_append (fun c hc => mem_takeEndWhile_imp hc) hlast _
  refine ⟨cs.takeWhile Unicode.isSpace, front, last, fun c hc => List.mem_takeWhile_imp hc, hlast,
    htrim.symm, ?_, hend ▸ hcs⟩
  intro c hc
  have hhead : (cs.dropWhile Unicode.isSpace).head? = some c := by
    rw [← hrest]
    cases front <;> exact hc
  have hnot := List.head?_dropWhile_not Unicode.isSpace cs
  rw [hhead] at hnot
  simpa using hnot

theorem trim_append_cons {left front : List Char} {last : Char}
    (hl : ∀ c ∈ left, Unicode.isSpace c = true)
    (hf : ∀ c ∈ (front ++ [last]).head?, Unicode.isSpace c = false)
    (hlast : Unicode.isSpace last = false) (rest : List Char) :
    trim (left ++ (front ++ last :: rest)) =
      front ++ last :: dropEndWhile Unicode.isSpace rest := by
  have hdrop : (front ++ last :: rest).dropWhile Unicode.isSpace = front ++ last :: rest := by
    cases front with
    | nil => exact List.dropWhile_cons_of_neg (by simp [hlast])
    | cons c front => exact List.dropWhile_cons_of_neg (by simp [hf c rfl])
  rw [trim, trimBy, List.dropWhile_append_of_pos hl, hdrop, dropEndWhile_append_cons hlast]

theorem trimEnd_append_space {w : List Char} (h : ∀ c ∈ w, Unicode.isSpace c = true)
    (cs : List Char) : trimEnd (cs ++ w) = trimEnd cs :=
  rdropWhile_append_of_pos h cs

theorem trim_append_space {w : List Char} (h : ∀ c ∈ w, Unicode.isSpace c = true)
    (cs : List Char) : trim (cs ++ w) = trim cs := by
  have hnone : ∀ c ∈ ([] : List Char), Unicode.isSpace c = true := fun c hc => nomatch hc
  exact trimBy_append hnone h cs

theorem mem_of_mem_lines {cs l : List Char} {c : Char} (hl : l ∈ lines cs) (hc : c ∈ l) :
    c ∈ cs := by
  induction cs generalizing l with
  | nil =>
      rw [lines, List.mem_singleton] at hl
      exact hl ▸ hc
  | cons d cs ih =>
      rw [lines] at hl
      split at hl
      · rcases List.mem_cons.1 hl with rfl | hl
        · cases hc
        · exact List.mem_cons_of_mem d (ih hl hc)
      · obtain ⟨m, ms, hm⟩ := List.exists_cons_of_ne_nil (lines_ne_nil cs)
        rw [hm] at hl ih
        rcases List.mem_cons.1 hl with rfl | hl
        · rcases List.mem_cons.1 hc with rfl | hc
          · exact List.mem_cons_self ..
          · exact List.mem_cons_of_mem d (ih (List.mem_cons_self ..) hc)
        · exact List.mem_cons_of_mem d (ih (List.mem_cons_of_mem m hl) hc)

end Text

namespace SettingLine

theorem readAll_append (block more : List Char) :
    readAll (block ++ '\n' :: more) = readAll block ++ readAll more := by
  rw [readAll, Text.lines_append, List.filter_append, List.map_append]
  rfl

theorem readAll_commentLine {c : List Char} (h : '\n' ∉ c) :
    readAll (commentLine c) = [.setting .comment c] := by
  have hline : '\n' ∉ commentLine c := by
    rw [commentLine, List.mem_append, not_or]
    exact ⟨by decide, h⟩
  have hfull : Text.trim (commentLine c) ≠ [] := Text.trimBy_cons_ne_nil (by decide) _
  rw [readAll, Text.lines_eq_self hline, List.filter_cons_of_pos (by simpa using hfull),
    List.filter_nil, List.map_singleton, commentLine, read_opening]

theorem readAll_of_space {cs : List Char} (h : ∀ c ∈ cs, Unicode.isSpace c = true) :
    readAll cs = [] := by
  rw [readAll, List.map_eq_nil_iff, List.filter_eq_nil_iff]
  intro l hl
  have hblank : Text.trim l = [] :=
    Answer.trimBy_of_all fun c hc => h c (Text.mem_of_mem_lines hl hc)
  simp [hblank]

theorem readAll_append_space {w : List Char} (h : ∀ c ∈ w, Unicode.isSpace c = true)
    (block : List Char) : readAll (block ++ w) = readAll (block ++ w.takeWhile (· != '\n')) := by
  by_cases hm : '\n' ∈ w
  · obtain ⟨l, m, rfl, hl⟩ := List.eq_append_cons_of_mem hm
    have hline : (l ++ '\n' :: m).takeWhile (· != '\n') = l := congrArg Prod.fst
      (Text.firstLine_append hl m)
    rw [hline, ← List.append_assoc, readAll_append,
      @readAll_of_space m fun c hc => h c (by simp [hc]), List.append_nil]
  · have hline : w.takeWhile (· != '\n') = w := congrArg Prod.fst (Text.firstLine_of_not_mem hm)
    rw [hline]

def append (w : List Char) : SettingLine → SettingLine
  | .setting k value => .setting k (value ++ w)
  | .unknown line => .unknown (line ++ w)

theorem opening_not_space (k : Key) : ∀ c ∈ k.opening, Unicode.isSpace c = false := by
  cases k <;> simp [Key.opening] <;> decide

theorem read_append_space {w : List Char} (h : ∀ c ∈ w, Unicode.isSpace c = true)
    (line : List Char) : read (line ++ w) = (read line).append w := by
  cases hread : read line with
  | setting k value =>
      rw [eq_of_read hread, List.append_assoc, read_opening, append]
  | unknown l =>
      obtain rfl := eq_of_read_unknown hread
      cases hlong : read (l ++ w) with
      | unknown m => rw [eq_of_read_unknown hlong, append]
      | setting k value =>
          -- an opening holds no white space, so it would open the line without `w` too
          rcases List.append_eq_append_iff.1 (eq_of_read hlong) with ⟨as, hopen, hw⟩ | ⟨bs, hl, -⟩
          · cases as with
            | nil =>
                rw [List.append_nil] at hopen
                rw [← hopen, ← List.append_nil k.opening, read_opening] at hread
                cases hread
            | cons a as =>
                have ha := opening_not_space k a (by simp [hopen])
                rw [h a (by simp [hw])] at ha
                cases ha
          · rw [hl, read_opening] at hread
            cases hread

end SettingLine

namespace Specification

/-- All that a specification says but its comment. -/
def uncommented (b : Specification) : Specification :=
  { b with comment := none }

theorem score_uncommented {σ : Type} (b : Specification) (e : Engine σ) (s : σ) (answer : String) :
    b.uncommented.score e s answer = b.score e s answer :=
  rfl

theorem apply_append_uncommented {w : List Char} (h : ∀ c ∈ w, Unicode.isSpace c = true)
    (b : Specification) (l : SettingLine) :
    (b.apply (l.append w)).uncommented = (b.apply l).uncommented ↔
      ¬(w ≠ [] ∧ ∃ (k : Key) (value : List Char), (k = .separator ∨ k = .feedback) ∧
        l = .setting k value) := by
  cases l with
  | unknown line => simp [SettingLine.append, apply]
  | setting k value =>
      cases k <;> simp [SettingLine.append, apply, set, uncommented, Text.trim_append_space h]

end Specification

theorem trimEnd_append_commentLine (cs c : List Char) :
    Text.trimEnd (cs ++ '\n' :: commentLine c) = cs ++ '\n' :: commentLine (Text.trimEnd c) := by
  have hline (d : List Char) : cs ++ '\n' :: commentLine d =
      (cs ++ '\n' :: Key.comment.name.toList) ++ '=' :: d := by
    rw [commentLine, Key.opening_eq]
    simp
  rw [hline, hline, Text.trimEnd, Text.dropEndWhile_append_cons (by decide)]
  rfl

theorem trim_append_comment {t : List Char} (h : Text.trim t ≠ []) (c : List Char) :
    Text.trim (t ++ '\n' :: commentLine c) =
      Text.trim t ++ (Text.takeEndWhile Unicode.isSpace t ++
        '\n' :: commentLine (Text.trimEnd c)) := by
  obtain ⟨left, front, last, hl, hlast, htrim, hhead, ht⟩ := Text.exists_trim_eq h
  have happend : t ++ '\n' :: commentLine c = left ++ (front ++ last ::
      (Text.takeEndWhile Unicode.isSpace t ++ '\n' :: commentLine c)) := by
    conv_lhs => rw [ht]
    simp
  rw [happend, Text.trim_append_cons hl hhead hlast, htrim]
  change front ++ last :: Text.trimEnd _ = _
  rw [trimEnd_append_commentLine]
  simp

theorem Suffixed.trim_ne_nil {t x capitals : List Char} (h : Suffixed (legacyLine t) x capitals) :
    Text.trim t ≠ [] := by
  intro hnil
  have htext := h.text
  rw [legacyLine, hnil] at htext
  cases x <;> cases htext

theorem firstLine_append_comment {w : List Char} (hw : ∀ d ∈ w, Unicode.isSpace d = true)
    {c : List Char} (hn : '\n' ∉ c) (body : List Char) :
    ∃ more block,
      Text.firstLine (body ++ (w ++ '\n' :: commentLine c)) =
        ((Text.firstLine body).1 ++ more, block) ∧
      (∀ d ∈ more, Unicode.isSpace d = true) ∧
      SettingLine.readAll block =
        SettingLine.readAll ((Text.firstLine body).2 ++ w.takeWhile (· != '\n')) ++
          [.setting .comment c] := by
  have hcomment := SettingLine.readAll_commentLine hn
  by_cases hbody : '\n' ∈ body
  · refine ⟨[], (Text.firstLine body).2 ++ (w ++ '\n' :: commentLine c), ?_, by simp, ?_⟩
    · rw [Text.firstLine_append_of_mem hbody, List.append_nil]
    · rw [← List.append_assoc, SettingLine.readAll_append, hcomment,
        SettingLine.readAll_append_space hw]
  · have hempty : SettingLine.readAll ([] ++ w.takeWhile (· != '\n')) = [] :=
      SettingLine.readAll_of_space fun d hd => hw d ((List.takeWhile_prefix _).subset hd)
    rw [Text.firstLine_append_of_not_mem hbody, Text.firstLine_of_not_mem hbody, hempty]
    -- the line goes on up to the newline among the white space or to the one before the comment
    by_cases hspaces : '\n' ∈ w
    · obtain ⟨l, m, rfl, hl⟩ := List.eq_append_cons_of_mem hspaces
      refine ⟨l, m ++ '\n' :: commentLine c, ?_, fun d hd => hw d (by simp [hd]), ?_⟩
      · rw [List.append_assoc, List.cons_append, Text.firstLine_append hl]
      · rw [SettingLine.readAll_append, hcomment,
          @SettingLine.readAll_of_space m fun d hd => hw d (by simp [hd])]
    · refine ⟨w, commentLine c, ?_, hw, ?_⟩
      · rw [Text.firstLine_append hspaces]
      · rw [hcomment, List.nil_append]

theorem legacy?_append_comment {t : List Char} {s : Sections} (h : Sections.legacy? t = some s)
    {c : List Char} (hn : '\n' ∉ c) :
    ∃ block, Sections.legacy? (t ++ '\n' :: commentLine c) = some { s with block := block } ∧
      SettingLine.readAll block = SettingLine.readAll (s.block ++ Text.lineEndSpace t) ++
        [.setting .comment (Text.trimEnd c)] := by
  obtain ⟨hline, hothers, hblock⟩ := legacy?_eq_some_iff.1 h
  have hn' : '\n' ∉ Text.trimEnd c := fun hm => hn ((List.rdropWhile_prefix _ _).subset hm)
  obtain ⟨more, block, hfirst, hmore, hread⟩ :=
    firstLine_append_comment (fun d hd => mem_takeEndWhile_imp hd) hn' (Text.trim t)
  rw [← trim_append_comment hline.trim_ne_nil] at hfirst
  rw [← hblock] at hread
  refine ⟨block, legacy?_eq_some_iff.2 ⟨?_, hothers, ?_⟩, hread⟩
  · rwa [legacyLine, hfirst, Text.trimEnd_append_space hmore]
  · rw [hfirst]

theorem Cuts.eq_of_nil {cs f : List Char} (h : Cuts cs f []) : f = cs := by
  cases h
  rfl

theorem length_le_dropBrackets (cs : List Char) : cs.length ≤ (dropBrackets cs).length + 2 := by
  unfold dropBrackets
  split <;> simp

/-- The last line is a separator or feedback, with white space behind it. -/
def LooseEnd (t : List Char) : Prop :=
  Text.lineEndSpace t ≠ [] ∧ ∃ (k : Key) (value : List Char), (k = .separator ∨ k = .feedback) ∧
    (Text.lines (Text.firstLine (Text.trim t)).2).getLast? = some (k.opening ++ value)

namespace Specification

theorem applyAll_concat (b : Specification) (ls : List SettingLine) (l : SettingLine) :
    b.applyAll (ls ++ [l]) = (b.applyAll ls).apply l := by
  rw [applyAll, List.foldl_append]
  rfl

theorem ofSections_append_comment {form : Form} {s : Sections} {c : List Char} (hn : '\n' ∉ c) :
    ofSections form { s with block := s.block ++ '\n' :: commentLine c } =
      { ofSections form s with comment := some (.ofList c) } := by
  rw [ofSections, SettingLine.readAll_append, SettingLine.readAll_commentLine hn, applyAll_concat]
  rfl

theorem applyAll_append_space {w : List Char} (hw : ∀ c ∈ w, Unicode.isSpace c = true)
    (hn : '\n' ∉ w) (b : Specification) (block : List Char) :
    (b.applyAll (SettingLine.readAll (block ++ w))).uncommented =
        (b.applyAll (SettingLine.readAll block)).uncommented ↔
      ¬(w ≠ [] ∧ ∃ (k : Key) (value : List Char), (k = .separator ∨ k = .feedback) ∧
        (Text.lines block).getLast? = some (k.opening ++ value)) := by
  obtain ⟨init, last, hlines, hspace⟩ := Text.lines_append_of_not_mem hn block
  have hlast : (Text.lines block).getLast? = some last := by rw [hlines, List.getLast?_concat]
  have htrim := Text.trim_append_space hw last
  rw [SettingLine.readAll, SettingLine.readAll, hspace, hlines, List.filter_append,
    List.filter_append, List.map_append, List.map_append]
  by_cases hblank : Text.trim last = []
  · have hnone : ∀ (k : Key) value, last ≠ k.opening ++ value := by
      rintro k value rfl
      obtain ⟨c, cs, hk⟩ : ∃ c cs, k.opening = c :: cs := by cases k <;> exact ⟨_, _, rfl⟩
      have hc := SettingLine.opening_not_space k c (by simp [hk])
      rw [hk] at hblank
      exact Text.trimBy_cons_ne_nil hc _ hblank
    simp [htrim, hblank, hnone]
  · have hread : ∀ (k : Key) value, last = k.opening ++ value ↔
        SettingLine.read last = .setting k value := by
      intro k value
      constructor
      · rintro rfl
        exact SettingLine.read_opening k value
      · exact SettingLine.eq_of_read
    rw [List.filter_cons_of_pos (by simpa [htrim] using hblank),
      List.filter_cons_of_pos (by simpa using hblank), List.filter_nil, List.map_singleton,
      List.map_singleton, applyAll_concat, applyAll_concat, SettingLine.read_append_space hw,
      apply_append_uncommented hw]
    simp [hread]

/-- The text with a comment on a line of its own below it. -/
def withComment (text c : String) : String :=
  text ++ "\ncomment=" ++ c

theorem withoutReturns_withComment {text c : String} (hr : '\r' ∉ c.toList) :
    Text.withoutReturns (withComment text c).toList =
      Text.withoutReturns text.toList ++ '\n' :: commentLine c.toList := by
  have hc : (withComment text c).toList = text.toList ++ '\n' :: commentLine c.toList := by
    simp [withComment, commentLine, Key.opening]
  have hline : Text.withoutReturns ('\n' :: commentLine c.toList) =
      '\n' :: commentLine c.toList := by
    apply Text.withoutReturns_eq_self
    simp [commentLine, Key.opening, hr]
  rw [hc, Text.withoutReturns_append, hline]

variable {text c : String}

theorem parse_withComment_of_current (hr : '\r' ∉ c.toList) (hn : '\n' ∉ c.toList)
    (h : HasMarker (Text.withoutReturns text.toList)) :
    parse (withComment text c) = { parse text with comment := some c } := by
  cases hs : Sections.current? (Text.withoutReturns text.toList) with
  | none => exact absurd h (current?_eq_none_iff.1 hs)
  | some s =>
      have hold : parse text = ofSections .current s := parse_of_current
        (inForm_eq_ok_iff.2 ⟨s, hs, rfl⟩)
      have hnew : Sections.inForm? (withComment text c).toList .current =
          some { s with block := s.block ++ '\n' :: commentLine c.toList } := by
        rw [Sections.inForm?, withoutReturns_withComment hr, current?_append hs]
      rw [hold, parse_of_current (inForm_eq_ok_iff.2 ⟨_, hnew, rfl⟩),
        ofSections_append_comment hn, String.ofList_toList]

theorem parse_eq_of_legacy {s : Sections} (hm : ¬HasMarker (Text.withoutReturns text.toList))
    (h : Sections.legacy? (Text.withoutReturns text.toList) = some s) :
    parse text = ofSections .legacy s := by
  have hcurrent : inForm .current text = .error ⟨.current⟩ := by
    rw [inForm, Sections.inForm?, current?_eq_none_iff.2 hm]
  exact parse_of_legacy hcurrent (inForm_eq_ok_iff.2 ⟨s, h, rfl⟩)

theorem parse_withComment_of_legacy {s : Sections} (hr : '\r' ∉ c.toList) (hn : '\n' ∉ c.toList)
    (hm : ¬HasMarker (Text.withoutReturns text.toList)) (hc : ¬HasMarker c.toList)
    (h : Sections.legacy? (Text.withoutReturns text.toList) = some s) :
    (parse (withComment text c)).uncommented = (parse text).uncommented ↔
      ¬LooseEnd (Text.withoutReturns text.toList) := by
  obtain ⟨block, hnew, hread⟩ := legacy?_append_comment h hn
  rw [← withoutReturns_withComment hr] at hnew
  have hmarker : ¬HasMarker (Text.withoutReturns (withComment text c).toList) := by
    rwa [withoutReturns_withComment hr, hasMarker_append_comment hm]
  obtain ⟨-, -, hblock⟩ := legacy?_eq_some_iff.1 h
  rw [parse_eq_of_legacy hm h, parse_eq_of_legacy hmarker hnew, ofSections, hread,
    applyAll_concat, LooseEnd, ← hblock]
  have hspace : ∀ d ∈ Text.takeEndWhile Unicode.isSpace (Text.withoutReturns text.toList),
      Unicode.isSpace d = true := fun d hd => mem_takeEndWhile_imp hd
  apply applyAll_append_space
  · intro d hd
    exact hspace d ((List.takeWhile_prefix _).subset hd)
  · intro hd
    exact absurd (List.mem_takeWhile_imp hd) (by decide)

theorem fragments_withComment_ne {s : Sections} (hr : '\r' ∉ c.toList)
    (hm : ¬HasMarker (Text.withoutReturns text.toList)) (hc : HasMarker c.toList)
    (h : Sections.legacy? (Text.withoutReturns text.toList) = some s) :
    (parse (withComment text c)).fragments ≠ (parse text).fragments := by
  obtain ⟨hline, hothers, -⟩ := legacy?_eq_some_iff.1 h
  cases hs : Sections.current? (Text.withoutReturns (withComment text c).toList) with
  | none =>
      rw [current?_eq_none_iff, withoutReturns_withComment hr, hasMarker_append_comment hm] at hs
      exact absurd hc hs
  | some n =>
      rw [parse_of_current (inForm_eq_ok_iff.2 ⟨n, hs, rfl⟩), parse_eq_of_legacy hm h,
        fragments_ofSections, fragments_ofSections, Sections.fragments, Sections.fragments, hothers]
      intro he
      have hfragments : n.first :: n.others = [s.first] :=
        List.map_injective_iff.2 (fun a b hab => String.ofList_injective hab) he
      have hold : s.first.length ≤ (Text.trim (Text.withoutReturns text.toList)).length :=
        hline.isPrefix.length_le.trans (List.rdropWhile_prefix _ _ |>.trans
          (isPrefix_firstLine _)).length_le
      obtain ⟨head, ws, hmarked, hcuts⟩ := current?_eq_some_iff.1 hs
      have hhead := hmarked.firstMarker?
      rw [withoutReturns_withComment hr, firstMarker?_append_comment hm] at hhead
      obtain ⟨⟨before, found⟩, -, hbefore⟩ := Option.map_eq_some_iff.1 hhead
      obtain rfl := congrArg Prod.fst hbefore
      obtain ⟨hfirst, hnone⟩ := List.cons.inj hfragments
      rw [hfirst, hnone, trim_append_comment hline.trim_ne_nil] at hcuts
      have hnew := length_le_dropBrackets (Text.trim (Text.withoutReturns text.toList) ++
        (Text.takeEndWhile Unicode.isSpace (Text.withoutReturns text.toList) ++
          '\n' :: commentLine (Text.trimEnd before)))
      rw [← hcuts.eq_of_nil] at hnew
      simp only [List.length_append, List.length_cons, commentLine, Key.opening] at hnew
      omega

/-- A comment below a specification changes what the specification says in no other field, and so no
score, exactly when the text was of the current form before, or the comment holds no marker and no
value above it ends in white space. -/
theorem parse_withComment_iff {form : Form} {b : Specification} (hr : '\r' ∉ c.toList)
    (hn : '\n' ∉ c.toList) (h : inForm form text = .ok b) :
    let t := Text.withoutReturns text.toList
    let harmless := HasMarker t ∨ ¬HasMarker c.toList ∧ ¬LooseEnd t
    ((parse (withComment text c)).uncommented = (parse text).uncommented ↔ harmless) ∧
    (HasMarker t → (parse (withComment text c)).comment = some c) ∧
    (harmless → ∀ {σ : Type} (e : Engine σ) (s : σ) (answer : String),
      (parse (withComment text c)).score e s answer = (parse text).score e s answer) := by
  intro t harmless
  have hcurrent (hm : HasMarker t) := parse_withComment_of_current hr hn hm
  have hiff : (parse (withComment text c)).uncommented = (parse text).uncommented ↔ harmless := by
    by_cases hm : HasMarker t
    · rw [hcurrent hm]
      exact iff_of_true rfl (.inl hm)
    · obtain ⟨s, hs, -⟩ := inForm_eq_ok_iff.1 h
      have hs : Sections.legacy? t = some s := by
        cases form with
        | legacy => exact hs
        | current =>
            rw [Sections.inForm?, current?_eq_none_iff.2 hm] at hs
            cases hs
      by_cases hc : HasMarker c.toList
      · refine iff_of_false ?_ (not_or.2 ⟨hm, fun hboth => hboth.1 hc⟩)
        intro he
        have hfragments := congrArg fragments he
        exact fragments_withComment_ne hr hm hc hs hfragments
      · rw [parse_withComment_of_legacy hr hn hm hc hs]
        exact ⟨fun hl => .inr ⟨hc, hl⟩, fun hh => (hh.resolve_left hm).2⟩
  refine ⟨hiff, fun hm => by rw [hcurrent hm], ?_⟩
  intro hharmless σ e s answer
  rw [← score_uncommented, hiff.2 hharmless, score_uncommented]

theorem parse_withComment_brackets :
    (∃ b, inForm .legacy "a/I/\npoints=3 " = .ok b) ∧
    ¬HasMarker "[[c]] i/".toList ∧ ¬LooseEnd "a/I/\npoints=3 ".toList ∧
    (parse (withComment "a/I/\npoints=3 " "[[c]] i/")).uncommented =
      (parse "a/I/\npoints=3 ").uncommented ∧
    (∃ b, inForm .current "[[a]]/o/\nseparator=, " = .ok b) ∧
    (parse (withComment "[[a]]/o/\nseparator=, " "]]//")).uncommented =
      (parse "[[a]]/o/\nseparator=, ").uncommented := by
  have hlegacy : inForm .legacy "a/I/\npoints=3 " = .ok _ := rfl
  have hcurrent : inForm .current "[[a]]/o/\nseparator=, " = .ok _ := rfl
  have hclean : ¬HasMarker "[[c]] i/".toList := by decide
  have hmarker : HasMarker (Text.withoutReturns "[[a]]/o/\nseparator=, ".toList) := by decide
  have hlast : (Text.lines (Text.firstLine (Text.trim "a/I/\npoints=3 ".toList)).2).getLast? =
      some (Key.points.opening ++ ['3']) := by decide
  have hloose : ¬LooseEnd "a/I/\npoints=3 ".toList := by
    rintro ⟨-, k, value, hk, hline⟩
    rw [hlast] at hline
    rcases hk with rfl | rfl
    · cases hline
    · cases hline
  exact ⟨⟨_, hlegacy⟩, hclean, hloose,
    (parse_withComment_iff (by decide) (by decide) hlegacy).1.2 (.inr ⟨hclean, hloose⟩),
    ⟨_, hcurrent⟩, (parse_withComment_iff (by decide) (by decide) hcurrent).1.2 (.inl hmarker)⟩

/-- A comment with a marker makes the older form the current one, and any comment keeps white space
that was trimmed away without it. -/
theorem parse_withComment_marker :
    (∃ b, inForm .legacy "a/I/" = .ok b) ∧ (parse "a/I/").fragments = ["a"] ∧
    (parse (withComment "a/I/" "]]//")).fragments = ["a/I/\ncomment="] ∧
    (parse "a//\nseparator=; ").separator = ";" ∧
    (parse (withComment "a//\nseparator=; " "x")).separator = "; " := by
  refine ⟨⟨_, rfl⟩, ?_, ?_, ?_, ?_⟩ <;> decide

end Specification

end AnswerGrading
