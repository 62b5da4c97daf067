import AnswerGrading.Authoring
import AnswerGrading.Proofs.FloatValue
import AnswerGrading.Proofs.PreparedAnswers

namespace AnswerGrading

open FloatBits (value?)

def OnlySpace (s : String) : Prop :=
  ∀ c ∈ s.toList, Unicode.isSpace c = true

instance (s : String) : Decidable (OnlySpace s) :=
  inferInstanceAs (Decidable (∀ c ∈ s.toList, Unicode.isSpace c = true))

theorem Text.trimBy_eq_nil_iff {p : Char → Bool} {cs : List Char} :
    Text.trimBy p cs = [] ↔ ∀ c ∈ cs, p c = true := by
  constructor
  · intro h
    cases hd : cs.dropWhile p with
    | nil => exact List.dropWhile_eq_nil_iff.1 hd
    | cons c ds =>
        have hc : p c = false := by
          have hc := List.head?_dropWhile_not p cs
          rw [hd] at hc
          simpa using hc
        have hnil : Text.trimBy p (c :: ds) = [] := by
          rw [← h, Text.trimBy, Text.trimBy, hd, List.dropWhile_cons_of_neg (by simp [hc])]
        exact absurd hnil (Text.trimBy_cons_ne_nil hc ds)
  · exact Answer.trimBy_of_all

theorem isBlankText_iff {s : String} : isBlankText s = true ↔ OnlySpace s := by
  rw [isBlankText, List.isEmpty_iff]
  exact Text.trimBy_eq_nil_iff

namespace Rule

def Blank (r : Rule) : Prop :=
  OnlySpace r.spec

instance (r : Rule) : Decidable r.Blank :=
  inferInstanceAs (Decidable (OnlySpace r.spec))

def Bare (r : Rule) : Prop :=
  value? r.fraction = some 0 ∧ OnlySpace r.ownFeedback

/-- A fraction within a millionth of one. -/
def WorthAll (r : Rule) : Prop :=
  ∃ q, value? r.fraction = some q ∧ |q - 1| < 1 / 10 ^ 6

theorem isBlank_iff {r : Rule} : r.isBlank = true ↔ r.Blank :=
  isBlankText_iff

theorem isGraded_iff {r : Rule} : r.isGraded = true ↔ ¬r.Bare := by
  rw [isGraded, Bool.or_eq_true, bne, Bool.not_eq_true', Bool.not_eq_true', Bare, not_and_or,
    ← FloatBits.beq_zero_iff, ← isBlankText_iff, Bool.not_eq_true, Bool.not_eq_true]

theorem isFullGrade_iff {r : Rule} : r.isFullGrade = true ↔ r.WorthAll := by
  rw [isFullGrade, decide_eq_true_iff]
  exact FloatBits.abs_sub_one_lt_tolerance_iff r.fraction

def faults (profile : KeyProfile) (r : Rule) : List AuthoringFault :=
  if r.isBlank then (if r.isGraded then [.gradeWithoutRegex] else [])
  else (Specification.diagnose profile r.spec).map .spec

def isUsed (r : Rule) : Bool :=
  !r.isBlank || r.isGraded

theorem isUsed_iff {r : Rule} : r.isUsed = true ↔ ¬(r.Blank ∧ r.Bare) := by
  rw [isUsed, Bool.or_eq_true, Bool.not_eq_true', isGraded_iff, ← Bool.not_eq_true, isBlank_iff,
    not_and_or]

theorem faults_eq_nil_iff {profile : KeyProfile} {r : Rule} :
    r.faults profile = [] ↔
      (r.Blank → r.Bare) ∧ (¬r.Blank → Specification.diagnose profile r.spec = []) := by
  rw [faults]
  by_cases hb : r.Blank
  · rw [if_pos (isBlank_iff.2 hb)]
    by_cases hg : r.Bare
    · rw [if_neg (fun h => isGraded_iff.1 h hg)]
      simp [hb, hg]
    · rw [if_pos (isGraded_iff.2 hg)]
      simp [hb, hg]
  · rw [if_neg (fun h => hb (isBlank_iff.1 h)), List.map_eq_nil_iff]
    simp [hb]

end Rule

def slotErrors (profile : KeyProfile) (slots : List (Rule × Nat)) : List SlotError :=
  slots.flatMap fun (r, i) => (r.faults profile).map (SlotError.mk i r.id)

namespace Tally

theorem add_eq (profile : KeyProfile) (t : Tally) (i : Nat) (r : Rule) :
    t.add profile i r =
      { errors := t.errors ++ (r.faults profile).map (SlotError.mk i r.id)
        authored := t.authored + (if r.isUsed then 1 else 0)
        full := t.full || (!r.isBlank && r.isFullGrade) } := by
  rw [add, Rule.faults, Rule.isUsed]
  by_cases hb : r.isBlank = true
  · by_cases hg : r.isGraded = true
    · simp [hb, hg]
    · simp [hb, hg]
  · simp [hb, Function.comp_def]

theorem foldl_add (profile : KeyProfile) (slots : List Rule) (n : Nat) (t : Tally) :
    (slots.zipIdx n).foldl (fun t (r, i) => t.add profile i r) t =
      { errors := t.errors ++ slotErrors profile (slots.zipIdx n)
        authored := t.authored + slots.countP Rule.isUsed
        full := t.full || slots.any fun r => !r.isBlank && r.isFullGrade } := by
  induction slots generalizing n t with
  | nil => simp [slotErrors]
  | cons r slots ih =>
      rw [List.zipIdx_cons, List.foldl_cons, ih]
      simp only [add_eq]
      simp [slotErrors, List.countP_cons, Bool.or_assoc, Nat.add_comm, Nat.add_left_comm]

theorem ofSlots_eq (profile : KeyProfile) (slots : List Rule) :
    ofSlots profile slots =
      { errors := slotErrors profile slots.zipIdx
        authored := slots.countP Rule.isUsed
        full := slots.any fun r => !r.isBlank && r.isFullGrade } := by
  rw [ofSlots, foldl_add]
  simp

variable (profile : KeyProfile) (slots : List Rule)

theorem authored_eq_zero_iff :
    (ofSlots profile slots).authored = 0 ↔ ∀ r ∈ slots, r.Blank ∧ r.Bare := by
  simp only [ofSlots_eq, List.countP_eq_zero, Rule.isUsed_iff, not_not]

theorem full_iff :
    (ofSlots profile slots).full = true ↔ ∃ r ∈ slots, ¬r.Blank ∧ r.WorthAll := by
  simp only [ofSlots_eq, List.any_eq_true, Bool.and_eq_true, Bool.not_eq_true', ← Bool.not_eq_true,
    Rule.isBlank_iff, Rule.isFullGrade_iff]

theorem setFault?_eq_noAnswers_iff :
    (ofSlots profile slots).setFault? = some .noAnswers ↔ ∀ r ∈ slots, r.Blank ∧ r.Bare := by
  rw [← authored_eq_zero_iff profile slots, setFault?]
  split
  · simp [*]
  · split <;> simp [*]

theorem setFault?_eq_noFullGrade_iff :
    (ofSlots profile slots).setFault? = some .noFullGrade ↔
      ¬(∀ r ∈ slots, r.Blank ∧ r.Bare) ∧ ¬∃ r ∈ slots, ¬r.Blank ∧ r.WorthAll := by
  rw [← authored_eq_zero_iff profile slots, ← full_iff profile slots, setFault?]
  split
  · simp [*]
  · split <;> simp [*]

theorem setFault?_eq_none_iff :
    (ofSlots profile slots).setFault? = none ↔ ∃ r ∈ slots, ¬r.Blank ∧ r.WorthAll := by
  have hanswer : (∃ r ∈ slots, ¬r.Blank ∧ r.WorthAll) → ¬∀ r ∈ slots, r.Blank ∧ r.Bare := by
    rintro ⟨r, hr, hb, -⟩ hall
    exact hb (hall r hr).1
  rw [← authored_eq_zero_iff profile slots, ← full_iff profile slots] at hanswer
  rw [← full_iff profile slots, setFault?]
  split
  · rename_i hzero
    simp only [reduceCtorEq, false_iff]
    exact fun hfull => hanswer hfull hzero
  · split <;> simp [*]

end Tally

theorem slotErrors_eq_nil_iff {profile : KeyProfile} {slots : List Rule} :
    slotErrors profile slots.zipIdx = [] ↔ ∀ r ∈ slots, r.faults profile = [] := by
  simp only [slotErrors, List.flatMap_eq_nil_iff, List.map_eq_nil_iff]
  constructor
  · intro h r hr
    obtain ⟨i, hi, rfl⟩ := List.getElem_of_mem hr
    exact h (slots[i], i) (List.mk_mem_zipIdx_iff_getElem?.2 (List.getElem?_eq_getElem hi))
  · rintro h ⟨r, i⟩ hr
    exact h r (List.fst_mem_of_mem_zipIdx hr)

theorem compileSlots_eq (profile : KeyProfile) (slots : List Rule) :
    compileSlots profile slots =
      if checkSlots profile slots = [] then .ok (slots.filter fun r => ¬r.Blank)
      else .error (checkSlots profile slots) := by
  have hblank : (fun r : Rule => !r.isBlank) = fun r => decide ¬r.Blank := by
    funext r
    rw [Bool.eq_iff_iff, decide_eq_true_iff, Bool.not_eq_true', ← Bool.not_eq_true, Rule.isBlank_iff]
  rw [compileSlots, hblank]
  split
  · rename_i h
    rw [if_pos h]
  · rename_i errors h
    rw [if_neg (fun he => h he)]

/-- Slots are accepted as they are, without the blank ones, when the blank ones hold nothing, every
other specification is in order and one of them is worth the full grade. Otherwise the faults of all
slots are told in order, and last, at the first slot, what is wrong with the list as a whole. -/
theorem compileSlots_checked (profile : KeyProfile) (slots : List Rule) :
    (∀ kept, compileSlots profile slots = .ok kept ↔
      (∀ r ∈ slots, r.Blank → r.Bare) ∧
      (∀ r ∈ slots, ¬r.Blank → Specification.diagnose profile r.spec = []) ∧
      (∃ r ∈ slots, ¬r.Blank ∧ r.WorthAll) ∧
      kept = slots.filter fun r => ¬r.Blank) ∧
    (∀ errors, compileSlots profile slots = .error errors ↔
      errors = checkSlots profile slots ∧ errors ≠ []) ∧
    ∃ fault? : Option AuthoringFault,
      checkSlots profile slots =
        (slots.zipIdx.flatMap fun (r, i) => (r.faults profile).map (SlotError.mk i r.id)) ++
          fault?.toList.map (SlotError.mk 0 ((slots.head?.map (·.id)).getD "")) ∧
      (fault? = some .noAnswers ↔ ∀ r ∈ slots, r.Blank ∧ r.Bare) ∧
      (fault? = some .noFullGrade ↔
        ¬(∀ r ∈ slots, r.Blank ∧ r.Bare) ∧ ¬∃ r ∈ slots, ¬r.Blank ∧ r.WorthAll) ∧
      (fault? = none ↔ ∃ r ∈ slots, ¬r.Blank ∧ r.WorthAll) := by
  have hcheck : checkSlots profile slots = [] ↔
      slotErrors profile slots.zipIdx = [] ∧ (Tally.ofSlots profile slots).setFault? = none := by
    rw [checkSlots, List.append_eq_nil_iff, List.map_eq_nil_iff, Option.toList_eq_nil_iff,
      Tally.ofSlots_eq]
  refine ⟨fun kept => ?_, fun errors => ?_, (Tally.ofSlots profile slots).setFault?, ?_,
    Tally.setFault?_eq_noAnswers_iff profile slots, Tally.setFault?_eq_noFullGrade_iff profile slots,
    Tally.setFault?_eq_none_iff profile slots⟩
  · have hok : compileSlots profile slots = .ok kept ↔
        checkSlots profile slots = [] ∧ kept = slots.filter fun r => ¬r.Blank := by
      rw [compileSlots_eq]
      split
      · rename_i h
        rw [Except.ok.injEq, eq_comm]
        exact (and_iff_right h).symm
      · rename_i h
        exact iff_of_false (by simp) fun hboth => h hboth.1
    rw [hok, hcheck, slotErrors_eq_nil_iff, Tally.setFault?_eq_none_iff]
    simp only [Rule.faults_eq_nil_iff, forall_and, and_assoc]
  · rw [compileSlots_eq]
    split
    · rename_i h
      exact iff_of_false (by simp) fun hboth => hboth.2 (hboth.1.trans h)
    · rename_i h
      constructor
      · intro he
        cases he
        exact ⟨rfl, h⟩
      · rintro ⟨rfl, -⟩
        rfl
  · rw [checkSlots, Tally.ofSlots_eq]
    rfl

end AnswerGrading
