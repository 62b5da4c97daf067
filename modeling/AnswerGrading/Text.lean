import AnswerGrading.Unicode.Letter

namespace AnswerGrading.Text

def isGap (c : Char) : Bool :=
  c == ' ' || c == '\t'

def dropEndWhile (p : Char → Bool) (cs : List Char) : List Char :=
  (cs.reverse.dropWhile p).reverse

def takeEndWhile (p : Char → Bool) (cs : List Char) : List Char :=
  (cs.reverse.takeWhile p).reverse

theorem dropEndWhile_append_takeEndWhile (p : Char → Bool) (cs : List Char) :
    dropEndWhile p cs ++ takeEndWhile p cs = cs := by
  rw [dropEndWhile, takeEndWhile, ← List.reverse_append, List.takeWhile_append_dropWhile,
    List.reverse_reverse]

def trimBy (p : Char → Bool) (cs : List Char) : List Char :=
  dropEndWhile p (cs.dropWhile p)

theorem dropEndWhile_append_singleton {p : Char → Bool} {c : Char} (hc : p c = false)
    (cs : List Char) : dropEndWhile p (cs ++ [c]) = cs ++ [c] := by
  simp [dropEndWhile, hc]

theorem trimBy_eq_self {p : Char → Bool} {c : Char} {cs : List Char} (hc : p c = false)
    (hl : ∀ d ∈ (c :: cs).getLast?, p d = false) : trimBy p (c :: cs) = c :: cs := by
  have hp := hl _ (List.getLast_mem_getLast? (List.cons_ne_nil c cs))
  have hd := List.dropLast_concat_getLast (List.cons_ne_nil c cs)
  rw [trimBy, List.dropWhile_cons_of_neg (by simp [hc]), ← hd, dropEndWhile_append_singleton hp]

theorem trimBy_cons_ne_nil {p : Char → Bool} {c : Char} (hc : p c = false) (cs : List Char) :
    trimBy p (c :: cs) ≠ [] := by
  rw [trimBy, List.dropWhile_cons_of_neg (by simp [hc])]
  intro h
  have ht := dropEndWhile_append_takeEndWhile p (c :: cs)
  have hall : (takeEndWhile p (c :: cs)).all p = true := by
    rw [takeEndWhile, List.all_reverse]
    exact List.all_takeWhile
  rw [h, List.nil_append] at ht
  simp [ht, hc] at hall

def trim (cs : List Char) : List Char :=
  trimBy Unicode.isSpace cs

def trimEnd (cs : List Char) : List Char :=
  dropEndWhile Unicode.isSpace cs

def trimGaps (cs : List Char) : List Char :=
  trimBy isGap cs

def isBlank (cs : List Char) : Bool :=
  cs.all isGap

def withoutReturns (cs : List Char) : List Char :=
  cs.filter (· != '\r')

theorem return_not_mem_withoutReturns (cs : List Char) : '\r' ∉ withoutReturns cs := by
  simp [withoutReturns]

theorem withoutReturns_eq_self {cs : List Char} (h : '\r' ∉ cs) : withoutReturns cs = cs := by
  rw [withoutReturns, List.filter_eq_self]
  intro c hc
  simpa using fun he : c = '\r' => h (he ▸ hc)

theorem withoutReturns_idem (cs : List Char) :
    withoutReturns (withoutReturns cs) = withoutReturns cs := by
  simp [withoutReturns, List.filter_filter]

def consHead (c : Char) : List (List Char) → List (List Char)
  | [] => [[c]]
  | l :: ls => (c :: l) :: ls

/-- The lines of a text; the last one is what follows the last newline. -/
def lines : List Char → List (List Char)
  | [] => [[]]
  | c :: cs => if c = '\n' then [] :: lines cs else consHead c (lines cs)

def unlines (ls : List (List Char)) : List Char :=
  ['\n'].intercalate ls

theorem lines_ne_nil (cs : List Char) : lines cs ≠ [] := by
  cases cs with
  | nil => simp [lines]
  | cons c cs =>
      unfold lines
      split
      · simp
      · unfold consHead
        split <;> simp

theorem unlines_cons_cons (l m : List Char) (ls : List (List Char)) :
    unlines (l :: m :: ls) = l ++ '\n' :: unlines (m :: ls) := by
  simp [unlines, List.intercalate]

theorem newline_not_mem_lines {cs l : List Char} (h : l ∈ lines cs) : '\n' ∉ l := by
  induction cs generalizing l with
  | nil =>
      simp only [lines, List.mem_singleton] at h
      simp [h]
  | cons c cs ih =>
      unfold lines at h
      split at h
      · rcases List.mem_cons.1 h with h | h
        · simp [h]
        · exact ih h
      · rename_i hc
        match hl : lines cs, lines_ne_nil cs with
        | m :: ms, _ =>
            rw [hl] at h ih
            simp only [consHead, List.mem_cons] at h
            rcases h with h | h
            · rw [h]
              intro hm
              rcases List.mem_cons.1 hm with hm | hm
              · exact hc hm.symm
              · exact ih (List.mem_cons_self ..) hm
            · exact ih (List.mem_cons_of_mem _ h)

theorem lines_append_newline {l : List Char} (h : '\n' ∉ l) (cs : List Char) :
    lines (l ++ '\n' :: cs) = l :: lines cs := by
  induction l with
  | nil => simp [lines]
  | cons c l ih =>
      have hc : c ≠ '\n' := fun he => h (he ▸ List.mem_cons_self ..)
      rw [List.cons_append, lines, if_neg hc, ih fun hm => h (List.mem_cons_of_mem _ hm)]
      rfl

theorem lines_eq_self {l : List Char} (h : '\n' ∉ l) : lines l = [l] := by
  induction l with
  | nil => rfl
  | cons c l ih =>
      have hc : c ≠ '\n' := fun he => h (he ▸ List.mem_cons_self ..)
      rw [lines, if_neg hc, ih fun hm => h (List.mem_cons_of_mem _ hm)]
      rfl

def firstLine (cs : List Char) : List Char × List Char :=
  (cs.takeWhile (· != '\n'), (cs.dropWhile (· != '\n')).drop 1)

/-- Cuts at a separator, leftmost first. The number counts the characters of a separator that are
still to be passed over. -/
def splitFrom (separator : List Char) : Nat → List Char → List (List Char)
  | _, [] => [[]]
  | n + 1, _ :: cs => splitFrom separator n cs
  | 0, c :: cs =>
      if separator.isPrefixOf (c :: cs) then [] :: splitFrom separator (separator.length - 1) cs
      else consHead c (splitFrom separator 0 cs)

def splitAt (separator : List Char) (cs : List Char) : List (List Char) :=
  splitFrom separator 0 cs

theorem splitFrom_ne_nil (separator : List Char) (n : Nat) (cs : List Char) :
    splitFrom separator n cs ≠ [] := by
  induction cs generalizing n with
  | nil => simp [splitFrom]
  | cons c cs ih =>
      cases n with
      | succ n => exact ih n
      | zero =>
          rw [splitFrom]
          split
          · exact List.cons_ne_nil _ _
          · unfold consHead
            split <;> exact List.cons_ne_nil _ _

theorem splitAt_ne_nil (separator cs : List Char) : splitAt separator cs ≠ [] :=
  splitFrom_ne_nil separator 0 cs

theorem splitAt_newline (cs : List Char) : splitAt ['\n'] cs = lines cs := by
  unfold splitAt
  induction cs with
  | nil => rfl
  | cons c cs ih =>
      unfold splitFrom lines
      by_cases h : c = '\n'
      · simp [h, ih]
      · have h' : '\n' ≠ c := fun e => h e.symm
        simp [h, h', ih]

end AnswerGrading.Text
