import AnswerGrading.Proofs.Recognition
import AnswerGrading.Proofs.SpecificationText
import AnswerGrading.Specification.Diagnostic

namespace AnswerGrading

def Flags.heed? (fs : Flags) : Form → Char → Option Flags
  | .current => fs.option?
  | .legacy => fs.legacyOption?

/-- The flags after the letters one by one, and the letters that were passed over. -/
def Flags.readLetters (form : Form) : Flags → List Char → Flags × List Char
  | fs, [] => (fs, [])
  | fs, c :: cs =>
      match fs.heed? form c with
      | some fs => readLetters form fs cs
      | none =>
          let (fs, ignored) := readLetters form fs cs
          (fs, c :: ignored)

theorem Flag.eq_of_toUpper {c : Char} {f : Flag} (h : c.toUpper = f.letter) :
    c = f.letter ∨ c = f.letter.toLower := by
  unfold Char.toUpper at h
  split at h
  · right
    have hval := congrArg Char.val h
    have hlower : f.letter.toLower.val = f.letter.val + 32 := by
      cases f <;> rfl
    have hzero : 'A'.val - 'a'.val + 32 = 0 := by decide
    apply Char.ext
    rw [hlower, ← hval, UInt32.add_assoc, hzero, UInt32.add_zero]
  · exact .inl h

theorem isOptionLetter_iff {c : Char} :
    isOptionLetter c = true ↔ c ∈ Diagnostic.letters .current := by
  constructor
  · intro h
    obtain ⟨f, hf⟩ := Option.isSome_iff_exists.1 h
    rcases Flag.eq_of_toUpper (Flag.letter_of_ofLetter? hf).symm with rfl | rfl <;>
      cases f <;> decide
  · intro h
    have hall : (Diagnostic.letters .current).all isOptionLetter = true := by rfl
    exact List.all_eq_true.1 hall c h

theorem isLegacyLetter_iff {c : Char} :
    isLegacyLetter c = true ↔ c ∈ Diagnostic.letters .legacy := by
  constructor
  · intro h
    obtain ⟨f, hf⟩ := Option.isSome_iff_exists.1 h
    rw [← Flag.letter_of_ofLetter? hf]
    cases f <;> decide
  · intro h
    have hall : (Diagnostic.letters .legacy).all isLegacyLetter = true := by rfl
    exact List.all_eq_true.1 hall c h

theorem Flags.heed?_isSome (fs : Flags) (form : Form) (c : Char) :
    (fs.heed? form c).isSome = Diagnostic.isLetter form c := by
  rw [Bool.eq_iff_iff, Diagnostic.isLetter, List.contains_iff_mem]
  cases form with
  | current => rw [heed?, option?_isSome, isOptionLetter_iff]
  | legacy => rw [heed?, legacyOption?_isSome, isLegacyLetter_iff]

theorem Flags.exists_set_of_heed? {fs gs : Flags} {form : Form} {c : Char}
    (h : fs.heed? form c = some gs) : ∃ f on, gs = fs.set f on := by
  cases form with
  | current =>
      obtain ⟨f, -, rfl⟩ := Option.map_eq_some_iff.1 h
      exact ⟨f, _, rfl⟩
  | legacy =>
      obtain ⟨f, -, rfl⟩ := Option.map_eq_some_iff.1 h
      exact ⟨f, _, rfl⟩

theorem Flags.readLetters_fst (form : Form) (fs : Flags) (cs : List Char) :
    (readLetters form fs cs).1 = cs.foldl (fun fs c => (fs.heed? form c).getD fs) fs := by
  induction cs generalizing fs with
  | nil => rfl
  | cons c cs ih =>
      rw [readLetters, List.foldl_cons]
      cases fs.heed? form c with
      | some gs => exact ih gs
      | none => exact ih fs

theorem Flags.readLetters_snd (form : Form) (fs : Flags) (cs : List Char) :
    (readLetters form fs cs).2 = cs.filter fun c => !Diagnostic.isLetter form c := by
  induction cs generalizing fs with
  | nil => rfl
  | cons c cs ih =>
      have hc := fs.heed?_isSome form c
      rw [readLetters, List.filter_cons, ← hc]
      cases fs.heed? form c with
      | some gs => exact ih gs
      | none => exact congrArg (c :: ·) (ih fs)

theorem flagsOf_eq_readLetters (form : Form) (cs : List Char) :
    Specification.flagsOf cs form = (Flags.readLetters form {} cs).1 := by
  rw [Flags.readLetters_fst]
  cases form <;> rfl

namespace Diagnostic

def illegal? : Diagnostic → Option Char
  | .illegalOption c => some c
  | _ => none

theorem mem_ofFragments {fs : List (List Char)} {d : Diagnostic} (h : d ∈ ofFragments fs) :
    ∃ anchor n, d = .unescapedAnchor anchor n := by
  obtain ⟨⟨f, i⟩, -, hd⟩ := List.mem_filterMap.1 h
  obtain ⟨anchor, -, rfl⟩ := Option.map_eq_some_iff.1 hd
  exact ⟨anchor, i + 1, rfl⟩

def ofLine? (profile : KeyProfile) (last : Option Key) : SettingLine → Option Diagnostic
  | .unknown line => some (.unknownKey (lineName line))
  | .setting k _ =>
      if !profile.allows k then some (.unknownKey k.name)
      else if last.any (k.rank ≤ ·.rank) then some (.keyOutOfOrder k profile)
      else none

def lastAfter (profile : KeyProfile) (last : Option Key) : SettingLine → Option Key
  | .unknown _ => last
  | .setting k _ =>
      if profile.allows k && !last.any (k.rank ≤ ·.rank) then some k else last

theorem ofLines_cons (profile : KeyProfile) (last : Option Key) (l : SettingLine)
    (ls : List SettingLine) :
    ofLines profile last (l :: ls) =
      (ofLine? profile last l).toList ++ ofLines profile (lastAfter profile last l) ls := by
  cases l with
  | unknown line => rfl
  | setting k value =>
      rw [ofLines, ofLine?, lastAfter]
      cases profile.allows k with
      | false => rfl
      | true => cases last.any (k.rank ≤ ·.rank) <;> rfl

theorem kind_of_ofLine? {profile : KeyProfile} {last : Option Key} {l : SettingLine}
    {d : Diagnostic} (h : ofLine? profile last l = some d) :
    (∃ name, d = .unknownKey name) ∨ ∃ k, d = .keyOutOfOrder k profile := by
  cases l with
  | unknown line =>
      cases h
      exact .inl ⟨_, rfl⟩
  | setting k value =>
      rw [ofLine?] at h
      split at h
      · cases h
        exact .inl ⟨_, rfl⟩
      · split at h
        · cases h
          exact .inr ⟨k, rfl⟩
        · cases h

theorem setting_of_ofLine?_eq_none {profile : KeyProfile} {last : Option Key} {l : SettingLine}
    (h : ofLine? profile last l = none) :
    ∃ k value, l = .setting k value ∧ profile.allows k = true ∧ (∀ j ∈ last, j.rank < k.rank) ∧
      lastAfter profile last l = some k := by
  cases l with
  | unknown line => cases h
  | setting k value =>
      cases hallows : profile.allows k with
      | false => simp [ofLine?, hallows] at h
      | true =>
          have hlast : last.any (k.rank ≤ ·.rank) = false := by
            simpa [ofLine?, hallows] using h
          refine ⟨k, value, rfl, hallows, ?_, by simp [lastAfter, hallows, hlast]⟩
          rintro j rfl
          simpa using hlast

theorem mem_ofLines {profile : KeyProfile} {last : Option Key} {ls : List SettingLine}
    {d : Diagnostic} (h : d ∈ ofLines profile last ls) :
    (∃ name, d = .unknownKey name) ∨ ∃ k, d = .keyOutOfOrder k profile := by
  induction ls generalizing last with
  | nil => cases h
  | cons l ls ih =>
      rw [ofLines_cons, List.mem_append, Option.mem_toList] at h
      exact h.elim kind_of_ofLine? ih

theorem filterMap_illegal?_ofLetters (form : Form) (cs : List Char) :
    (ofLetters form cs).filterMap illegal? = cs.filter fun c => !isLetter form c := by
  rw [ofLetters, List.filterMap_map]
  exact List.filterMap_some

theorem filterMap_illegal?_ofSections (profile : KeyProfile) (form : Form) (s : Sections) :
    (ofSections profile form s).filterMap illegal? = (Flags.readLetters form {} s.letters).2 := by
  have hfragments : (ofFragments s.fragments).filterMap illegal? = [] := by
    rw [List.filterMap_eq_nil_iff]
    intro d hd
    obtain ⟨anchor, n, rfl⟩ := mem_ofFragments hd
    rfl
  have hlines : (ofLines profile none (SettingLine.readAll s.block)).filterMap illegal? = [] := by
    rw [List.filterMap_eq_nil_iff]
    intro d hd
    rcases mem_ofLines hd with ⟨name, rfl⟩ | ⟨k, rfl⟩ <;> rfl
  rw [ofSections, List.filterMap_append, List.filterMap_append, filterMap_illegal?_ofLetters,
    hfragments, hlines, List.append_nil, List.append_nil, Flags.readLetters_snd]

theorem malformed_not_mem_ofSections (profile : KeyProfile) (form : Form) (s : Sections) :
    .malformed ∉ ofSections profile form s := by
  intro h
  rcases List.mem_append.1 h with h | h
  · rcases List.mem_append.1 h with h | h
    · obtain ⟨c, -, hc⟩ := List.mem_map.1 h
      cases hc
    · obtain ⟨anchor, n, hd⟩ := mem_ofFragments h
      cases hd
  · rcases mem_ofLines h with ⟨name, hd⟩ | ⟨k, hd⟩ <;> cases hd

theorem settings_of_ofLines_eq_nil {profile : KeyProfile} {last : Option Key}
    {ls : List SettingLine} (h : ofLines profile last ls = []) :
    ∃ settings : List (Key × List Char), ls = settings.map (fun x => .setting x.1 x.2) ∧
      (∀ x ∈ settings, profile.allows x.1 = true) ∧
      (∀ j ∈ last, ∀ x ∈ settings, j.rank < x.1.rank) ∧
      settings.Pairwise fun x y => x.1.rank < y.1.rank := by
  induction ls generalizing last with
  | nil => exact ⟨[], rfl, by simp, by simp, .nil⟩
  | cons l ls ih =>
      rw [ofLines_cons, List.append_eq_nil_iff, Option.toList_eq_nil_iff] at h
      obtain ⟨k, value, rfl, hallows, hk, hlast⟩ := setting_of_ofLine?_eq_none h.1
      rw [hlast] at h
      obtain ⟨settings, rfl, hall, hafter, hpairs⟩ := ih h.2
      -- the key just read is the one that all later keys must come after
      have hbehind : ∀ x ∈ settings, k.rank < x.1.rank := hafter k rfl
      refine ⟨(k, value) :: settings, rfl, List.forall_mem_cons.2 ⟨hallows, hall⟩, ?_,
        .cons hbehind hpairs⟩
      intro j hj
      exact List.forall_mem_cons.2 ⟨hk j hj, fun x hx => (hk j hj).trans (hbehind x hx)⟩

end Diagnostic

namespace Specification

def Holds (b : Specification) (value : List Char) : Key → Prop
  | .separator => b.separator = .ofList value
  | .comment => b.comment = some (.ofList value)
  | .feedback => b.feedback = some (.ofList value)
  | .points => b.points = word? (Text.trim value)
  | .size => b.size = word? (Text.trim value)

def Unset (b : Specification) : Key → Prop
  | .separator => b.separator = "\n"
  | .comment => b.comment = none
  | .feedback => b.feedback = none
  | .points => b.points = none
  | .size => b.size = none

theorem holds_set (b : Specification) (value : List Char) (k : Key) :
    (b.set value k).Holds value k := by
  cases k <;> rfl

theorem holds_set_of_ne {b : Specification} {value other : List Char} {j k : Key} (h : j ≠ k) :
    (b.set other j).Holds value k ↔ b.Holds value k := by
  cases j <;> cases k <;> first | exact Iff.rfl | exact absurd rfl h

theorem unset_set_of_ne {b : Specification} {other : List Char} {j k : Key} (h : j ≠ k) :
    (b.set other j).Unset k ↔ b.Unset k := by
  cases j <;> cases k <;> first | exact Iff.rfl | exact absurd rfl h

def setAll (b : Specification) (settings : List (Key × List Char)) : Specification :=
  settings.foldl (fun b x => b.set x.2 x.1) b

theorem setAll_of_not_mem {b : Specification} {k : Key} {settings : List (Key × List Char)}
    (h : ∀ x ∈ settings, x.1 ≠ k) :
    (∀ value, (b.setAll settings).Holds value k ↔ b.Holds value k) ∧
      ((b.setAll settings).Unset k ↔ b.Unset k) := by
  induction settings generalizing b with
  | nil => exact ⟨fun value => Iff.rfl, Iff.rfl⟩
  | cons x settings ih =>
      have hx : x.1 ≠ k := h x (List.mem_cons_self ..)
      obtain ⟨hholds, hunset⟩ := ih (b := b.set x.2 x.1) fun y hy => h y (List.mem_cons_of_mem _ hy)
      exact ⟨fun value => (hholds value).trans (holds_set_of_ne hx),
        hunset.trans (unset_set_of_ne hx)⟩

theorem setAll_fields {b : Specification} {settings : List (Key × List Char)}
    (h : settings.Pairwise fun x y => x.1.rank < y.1.rank) (k : Key) :
    (∃ value, settings.filter (fun x => decide (x.1 = k)) = [(k, value)] ∧
      (b.setAll settings).Holds value k) ∨
    (settings.filter (fun x => decide (x.1 = k)) = [] ∧
      ((b.setAll settings).Unset k ↔ b.Unset k)) := by
  induction h generalizing b with
  | nil => exact .inr ⟨rfl, Iff.rfl⟩
  | @cons x settings hx _ ih =>
      by_cases hk : x.1 = k
      · subst hk
        have hne : ∀ y ∈ settings, y.1 ≠ x.1 := by
          intro y hy he
          have hlt := hx y hy
          rw [he] at hlt
          exact hlt.false
        refine .inl ⟨x.2, ?_, ((setAll_of_not_mem hne).1 x.2).2 (holds_set b x.2 x.1)⟩
        rw [List.filter_cons_of_pos (by simp), List.filter_eq_nil_iff.2]
        intro y hy
        simpa using hne y hy
      · rw [List.filter_cons_of_neg (by simpa using hk)]
        rcases ih (b := b.set x.2 x.1) with hholds | ⟨hnone, hunset⟩
        · exact .inl hholds
        · exact .inr ⟨hnone, hunset.trans (unset_set_of_ne hk)⟩

/-- Every letter sets a flag, every line that is not blank is a setting that the author may use, the
keys are in order, and each field comes from its only line or is as it is without one. -/
structure ReadWhole (profile : KeyProfile) (form : Form) (s : Sections) (b : Specification)
    (settings : List (Key × List Char)) : Prop where
  letters : ∀ c ∈ s.letters, ∀ fs : Flags, ∃ f on, fs.heed? form c = some (fs.set f on)
  lines : (Text.lines s.block).filter (fun l => !(Text.trim l).isEmpty) =
    settings.map fun x => x.1.opening ++ x.2
  read : SettingLine.readAll s.block = settings.map fun x => .setting x.1 x.2
  allowed : ∀ x ∈ settings, profile.allows x.1 = true
  ordered : settings.Pairwise fun x y => x.1.rank < y.1.rank
  fields : ∀ k, (∃ value, settings.filter (fun x => decide (x.1 = k)) = [(k, value)] ∧
      b.Holds value k) ∨
    (settings.filter (fun x => decide (x.1 = k)) = [] ∧ b.Unset k)

theorem heed?_of_ofLetters_eq_nil {form : Form} {cs : List Char}
    (h : Diagnostic.ofLetters form cs = []) {c : Char} (hc : c ∈ cs) (fs : Flags) :
    ∃ f on, fs.heed? form c = some (fs.set f on) := by
  rw [Diagnostic.ofLetters, List.map_eq_nil_iff, List.filter_eq_nil_iff] at h
  have hletter : Diagnostic.isLetter form c = true := by simpa using h c hc
  rw [← fs.heed?_isSome, Option.isSome_iff_exists] at hletter
  obtain ⟨gs, hgs⟩ := hletter
  obtain ⟨f, on, rfl⟩ := Flags.exists_set_of_heed? hgs
  exact ⟨f, on, hgs⟩

theorem lines_of_readAll {block : List Char} {settings : List (Key × List Char)}
    (h : SettingLine.readAll block = settings.map fun x => .setting x.1 x.2) :
    (Text.lines block).filter (fun l => !(Text.trim l).isEmpty) =
      settings.map fun x => x.1.opening ++ x.2 := by
  rw [SettingLine.readAll] at h
  generalize (Text.lines block).filter (fun l => !(Text.trim l).isEmpty) = ls at h ⊢
  induction ls generalizing settings with
  | nil =>
      rw [List.map_nil, eq_comm, List.map_eq_nil_iff] at h
      rw [h, List.map_nil]
  | cons l ls ih =>
      cases settings with
      | nil => cases h
      | cons x settings =>
          rw [List.map_cons, List.map_cons, List.cons.injEq] at h
          rw [List.map_cons, ih h.2, SettingLine.eq_of_read h.1]

theorem readWhole_of_ofSections_eq_nil {profile : KeyProfile} {form : Form} {s : Sections}
    (h : Diagnostic.ofSections profile form s = []) :
    ∃ settings, ReadWhole profile form s (ofSections form s) settings := by
  rw [Diagnostic.ofSections, List.append_eq_nil_iff, List.append_eq_nil_iff] at h
  obtain ⟨⟨hletters, -⟩, hlines⟩ := h
  obtain ⟨settings, hread, hallowed, -, hordered⟩ := Diagnostic.settings_of_ofLines_eq_nil hlines
  refine ⟨settings, fun c hc fs => heed?_of_ofLetters_eq_nil hletters hc fs,
    lines_of_readAll hread, hread, hallowed, hordered, ?_⟩
  intro k
  rw [ofSections, hread, applyAll_settings]
  rcases setAll_fields hordered k with hholds | ⟨hnone, hunset⟩
  · exact .inl hholds
  · refine .inr ⟨hnone, hunset.2 ?_⟩
    cases k <;> rfl

theorem inForm_eq_error_iff {form : Form} {text : String} :
    (∃ err, inForm form text = .error err) ↔ Sections.inForm? text.toList form = none := by
  unfold inForm
  cases Sections.inForm? text.toList form <;> simp

theorem read?_eq_none_iff {cs : List Char} :
    Sections.read? cs = none ↔
      Sections.inForm? cs .current = none ∧ Sections.inForm? cs .legacy = none := by
  unfold Sections.read?
  cases Sections.inForm? cs .current <;> simp

theorem current_eq_none_of_read? {cs : List Char} {s : Sections}
    (h : Sections.read? cs = some (.legacy, s)) : Sections.inForm? cs .current = none := by
  unfold Sections.read? at h
  cases hc : Sections.inForm? cs .current with
  | none => rfl
  | some s' =>
      rw [hc] at h
      cases h

theorem diagnose_eq_malformed_iff {profile : KeyProfile} {text : String} :
    diagnose profile text = [.malformed] ↔
      (∃ err, inForm .current text = .error err) ∧ ∃ err, inForm .legacy text = .error err := by
  rw [inForm_eq_error_iff, inForm_eq_error_iff, ← read?_eq_none_iff, diagnose]
  cases Sections.read? text.toList with
  | none => exact iff_of_true rfl rfl
  | some found =>
      obtain ⟨form, s⟩ := found
      refine iff_of_false ?_ (fun h => nomatch h)
      intro h
      apply Diagnostic.malformed_not_mem_ofSections profile form s
      rw [show Diagnostic.ofSections profile form s = _ from h]
      exact List.mem_singleton.2 rfl

/-- A text is malformed when it is in neither form. Any other is diagnosed by the sections that its
parse reads: the letters reported are those that leave the flags as they are, and with nothing to
report the sections are read whole. -/
theorem diagnose_agrees (profile : KeyProfile) (text : String) :
    (diagnose profile text = [.malformed] ↔
      (∃ err, inForm .current text = .error err) ∧ ∃ err, inForm .legacy text = .error err) ∧
    (diagnose profile text ≠ [.malformed] →
      ∃ form s, Sections.inForm? text.toList form = some s ∧
        (form = .legacy → ∃ err, inForm .current text = .error err) ∧
        parse text = ofSections form s ∧
        Flags.readLetters form {} s.letters =
          ((parse text).flags, (diagnose profile text).filterMap Diagnostic.illegal?) ∧
        (diagnose profile text = [] →
          ∃ settings, ReadWhole profile form s (parse text) settings)) := by
  refine ⟨diagnose_eq_malformed_iff, ?_⟩
  intro hwell
  unfold diagnose at hwell ⊢
  cases hread : Sections.read? text.toList with
  | none =>
      rw [hread] at hwell
      exact absurd rfl hwell
  | some found =>
      obtain ⟨form, s⟩ := found
      have hparse : parse text = ofSections form s := by
        rw [parse, hread]
      refine ⟨form, s, Sections.inForm?_of_read? hread, ?_, hparse, ?_, ?_⟩
      · rintro rfl
        exact inForm_eq_error_iff.2 (current_eq_none_of_read? hread)
      · rw [hparse, flags_ofSections, flagsOf_eq_readLetters]
        exact Prod.ext rfl (Diagnostic.filterMap_illegal?_ofSections profile form s).symm
      · intro hnone
        rw [hparse]
        exact readWhole_of_ofSections_eq_nil hnone

def blankLines : String := "[[a b]] [[c]]/IsO/\n\nseparator=;\n \npoints=3\n"

theorem diagnose_agrees_blankLines :
    diagnose .cloze blankLines ≠ [.malformed] ∧ diagnose .cloze blankLines = [] ∧
      ∃ form s settings, ReadWhole .cloze form s (parse blankLines) settings := by
  have hnone : diagnose .cloze blankLines = [] := by decide +kernel
  have hwell : diagnose .cloze blankLines ≠ [.malformed] := by
    rw [hnone]
    exact List.cons_ne_nil _ _ |>.symm
  obtain ⟨form, s, -, -, -, -, hwhole⟩ := (diagnose_agrees .cloze blankLines).2 hwell
  obtain ⟨settings, hsettings⟩ := hwhole hnone
  exact ⟨hwell, hnone, form, s, settings, hsettings⟩

end Specification

end AnswerGrading
