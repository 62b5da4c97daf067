import AnswerGrading.Proofs.Diagnosis
import Mathlib.Data.List.ReduceOption

/-!
Which setting lines are reported. The last key in order is as late as every allowed key so far, so
that each line is judged by the lines above it, whichever of them were reported themselves.
-/

namespace AnswerGrading

open Text

variable {profile : KeyProfile} {line : List Char} {earlier : List (List Char)}

theorem Key.opens_iff {k : Key} :
    k.opening <+: line ↔ ∃ value, SettingLine.read line = .setting k value := by
  constructor
  · rintro ⟨value, rfl⟩
    exact ⟨value, SettingLine.read_opening k value⟩
  · rintro ⟨value, h⟩
    exact ⟨value, (SettingLine.eq_of_read h).symm⟩

theorem Key.opens_iff_of_read {j k : Key} {value : List Char}
    (h : SettingLine.read line = .setting k value) : j.opening <+: line ↔ j = k := by
  rw [opens_iff, h]
  constructor
  · rintro ⟨_, h⟩
    cases h
    rfl
  · rintro rfl
    exact ⟨value, rfl⟩

theorem Key.not_opens_of_read {k : Key} {l : List Char}
    (h : SettingLine.read line = .unknown l) : ¬k.opening <+: line := by
  rw [opens_iff, h]
  rintro ⟨_, h⟩
  cases h

theorem Key.trim_ne_nil_of_opens {k : Key} (h : k.opening <+: line) : trim line ≠ [] := by
  obtain ⟨value, rfl⟩ := h
  exact trim_opening_ne_nil k value

theorem SettingLine.read_of_blank (hb : trim line = []) :
    SettingLine.read line = .unknown line := by
  cases hr : SettingLine.read line with
  | unknown l => rw [SettingLine.eq_of_read_unknown hr]
  | setting k value =>
      exact absurd hb (Key.trim_ne_nil_of_opens ((Key.opens_iff_of_read hr).2 rfl))

/-- The line has an allowed key that is the same as this one or a later one. -/
def Key.BarredBy (profile : KeyProfile) (k : Key) (line : List Char) : Prop :=
  ∃ j : Key, j.opening <+: line ∧ profile.allows j = true ∧ k.rank ≤ j.rank

theorem Key.barredBy_iff_of_read {j k : Key} {value : List Char}
    (h : SettingLine.read line = .setting j value) :
    k.BarredBy profile line ↔ profile.allows j = true ∧ k.rank ≤ j.rank := by
  simp only [BarredBy, opens_iff_of_read h, exists_eq_left]

theorem Key.not_barredBy_of_read {k : Key} {l : List Char}
    (h : SettingLine.read line = .unknown l) : ¬k.BarredBy profile line :=
  fun ⟨_, hj, _⟩ => not_opens_of_read h hj

/-- What is wrong with a line that stands below others: it begins with no key, its key is not
allowed, or a line above it has an allowed key that is not earlier. -/
inductive LineFault (profile : KeyProfile) (earlier : List (List Char)) (line : List Char) :
    Diagnostic → Prop where
  | unknown {name : List Char} (hb : trim line ≠ []) (h : ∀ k : Key, ¬k.opening <+: line)
      (hn : '=' ∉ name) (hl : line = name ∨ ∃ rest, line = name ++ '=' :: rest) :
      LineFault profile earlier line (.unknownKey (.ofList (trimEnd name)))
  | notAllowed {k : Key} (h : k.opening <+: line) (ha : profile.allows k = false) :
      LineFault profile earlier line (.unknownKey k.name)
  | outOfOrder {k : Key} {above : List Char} (h : k.opening <+: line)
      (ha : profile.allows k = true) (hm : above ∈ earlier) (hk : k.BarredBy profile above) :
      LineFault profile earlier line (.keyOutOfOrder k profile)

theorem takeWhile_ne_equals_iff {name : List Char} :
    line.takeWhile (· != '=') = name ↔
      '=' ∉ name ∧ (line = name ∨ ∃ rest, line = name ++ '=' :: rest) := by
  constructor
  · rintro rfl
    refine ⟨fun h => by simpa using List.mem_takeWhile_imp h, ?_⟩
    have happend := List.takeWhile_append_dropWhile (p := (· != '=')) (l := line)
    cases hdrop : line.dropWhile (· != '=') with
    | nil =>
        rw [hdrop, List.append_nil] at happend
        exact .inl happend.symm
    | cons c rest =>
        have hc : c = '=' := by
          simpa [hdrop] using List.head?_dropWhile_not (· != '=') line
        rw [hdrop, hc] at happend
        exact .inr ⟨rest, happend.symm⟩
  · rintro ⟨hn, h⟩
    have hname : ∀ c ∈ name, (c != '=') = true := fun c hc => by
      simpa using fun he : c = '=' => hn (he ▸ hc)
    rcases h with rfl | ⟨rest, rfl⟩
    · exact List.takeWhile_eq_self_iff.2 hname
    · exact takeWhile_append_cons hname (by decide) rest

def SettingLine.readLines (ls : List (List Char)) : List SettingLine :=
  (ls.filter fun l => !(trim l).isEmpty).map SettingLine.read

theorem SettingLine.readAll_eq (block : List Char) : readAll block = readLines (lines block) :=
  rfl

def SettingLine.isAllowed (profile : KeyProfile) : SettingLine → Bool
  | .setting k _ => profile.allows k
  | .unknown _ => false

namespace Diagnostic

def isOrderFault : Diagnostic → Bool
  | .keyOutOfOrder _ _ => true
  | _ => false

theorem filter_ofLines (profile : KeyProfile) (last : Option Key) (ls : List SettingLine) :
    (ofLines profile last ls).filter isOrderFault =
      ofLines profile last (ls.filter (SettingLine.isAllowed profile)) := by
  induction ls generalizing last with
  | nil => rfl
  | cons l ls ih =>
      rw [ofLines_cons, List.filter_append, ih]
      cases l with
      | unknown line => rfl
      | setting k value =>
          rw [List.filter_cons, SettingLine.isAllowed, ofLine?]
          cases ha : profile.allows k with
          | false => simp [isOrderFault, lastAfter, ha]
          | true =>
              rw [if_pos rfl, ofLines_cons, ofLine?, ha]
              cases last.any (k.rank ≤ ·.rank) <;> rfl

def ofText? (profile : KeyProfile) (last : Option Key) (line : List Char) : Option Diagnostic :=
  if trim line = [] then none else ofLine? profile last (SettingLine.read line)

theorem ofLines_readLines_cons (profile : KeyProfile) (last : Option Key) (line : List Char)
    (ls : List (List Char)) :
    ofLines profile last (SettingLine.readLines (line :: ls)) =
      (ofText? profile last line).toList ++
        ofLines profile (lastAfter profile last (SettingLine.read line))
          (SettingLine.readLines ls) := by
  rw [ofText?, SettingLine.readLines]
  by_cases hb : trim line = []
  · -- A blank line is no setting, so that it is read over without a trace.
    rw [if_pos hb, SettingLine.read_of_blank hb, List.filter_cons_of_neg (by simp [hb])]
    rfl
  · rw [if_neg hb, List.filter_cons_of_pos (by simpa using hb), List.map_cons, ofLines_cons]
    rfl

theorem lastAfter_any_iff {last : Option Key} {k : Key} :
    (lastAfter profile last (SettingLine.read line)).any (k.rank ≤ ·.rank) = true ↔
      last.any (k.rank ≤ ·.rank) = true ∨ k.BarredBy profile line := by
  cases hr : SettingLine.read line with
  | unknown l => simp [lastAfter, Key.not_barredBy_of_read hr]
  | setting j value =>
      rw [Key.barredBy_iff_of_read hr, lastAfter]
      cases profile.allows j with
      | false => simp
      | true =>
          cases last with
          | none => simp
          | some last =>
              by_cases hle : j.rank ≤ last.rank
              · have hkept : k.rank ≤ j.rank → k.rank ≤ last.rank := fun h => h.trans hle
                simpa [hle] using hkept
              · have hraised : k.rank ≤ last.rank → k.rank ≤ j.rank :=
                  fun h => h.trans (Nat.le_of_not_le hle)
                simpa [hle] using hraised

/-- The last key in order bars exactly the keys that some line above bars. -/
def Latest (profile : KeyProfile) (earlier : List (List Char)) (last : Option Key) : Prop :=
  ∀ k : Key, last.any (k.rank ≤ ·.rank) = true ↔ ∃ above ∈ earlier, k.BarredBy profile above

theorem latest_nil (profile : KeyProfile) : Latest profile [] none := by
  intro k
  simp

theorem Latest.concat {last : Option Key} (h : Latest profile earlier last) (line : List Char) :
    Latest profile (earlier ++ [line]) (lastAfter profile last (SettingLine.read line)) := by
  intro k
  rw [lastAfter_any_iff, h k]
  simp only [List.mem_append, List.mem_singleton, or_and_right, exists_or, exists_eq_left]

theorem Latest.lineFault {last : Option Key} (h : Latest profile earlier last) {d : Diagnostic}
    (hd : ofText? profile last line = some d) : LineFault profile earlier line d := by
  rw [ofText?] at hd
  split at hd
  · cases hd
  rename_i hb
  cases hr : SettingLine.read line with
  | unknown l =>
      rw [hr, ofLine?, lineName, SettingLine.eq_of_read_unknown hr] at hd
      obtain ⟨hn, hl⟩ := takeWhile_ne_equals_iff.1 (rfl : line.takeWhile (· != '=') = _)
      cases hd
      exact .unknown hb (fun _ => Key.not_opens_of_read hr) hn hl
  | setting k value =>
      have hk : k.opening <+: line := (Key.opens_iff_of_read hr).2 rfl
      rw [hr, ofLine?] at hd
      cases ha : profile.allows k with
      | false =>
          simp only [ha] at hd
          cases hd
          exact .notAllowed hk ha
      | true =>
          cases hany : last.any (k.rank ≤ ·.rank) with
          | false => simp [ha, hany] at hd
          | true =>
              obtain ⟨above, hm, hbar⟩ := (h k).1 hany
              simp only [ha, hany] at hd
              cases hd
              exact .outOfOrder hk ha hm hbar

theorem Latest.ofText?_of_lineFault {last : Option Key} (h : Latest profile earlier last)
    {d : Diagnostic} (hd : LineFault profile earlier line d) :
    ofText? profile last line = some d := by
  cases hd with
  | unknown hb hno hn hl =>
      cases hr : SettingLine.read line with
      | setting k value => exact absurd ((Key.opens_iff_of_read hr).2 rfl) (hno k)
      | unknown l =>
          rw [ofText?, if_neg hb, hr, ofLine?, lineName, SettingLine.eq_of_read_unknown hr,
            takeWhile_ne_equals_iff.2 ⟨hn, hl⟩]
  | notAllowed hk ha =>
      obtain ⟨value, hr⟩ := Key.opens_iff.1 hk
      rw [ofText?, if_neg (Key.trim_ne_nil_of_opens hk), hr, ofLine?, ha]
      rfl
  | outOfOrder hk ha hm hbar =>
      obtain ⟨value, hr⟩ := Key.opens_iff.1 hk
      rw [ofText?, if_neg (Key.trim_ne_nil_of_opens hk), hr, ofLine?, ha, (h _).2 ⟨_, hm, hbar⟩]
      rfl

theorem toList_append_reduceOption (d : Option Diagnostic) (ds : List (Option Diagnostic)) :
    d.toList ++ ds.reduceOption = (d :: ds).reduceOption := by
  cases d <;> rfl

theorem Latest.exists_reports {last : Option Key} (h : Latest profile earlier last)
    (ls : List (List Char)) :
    ∃ reports : List (Option Diagnostic),
      ofLines profile last (SettingLine.readLines ls) = reports.reduceOption ∧
      reports.length = ls.length ∧
      ∀ (i : Nat) (hi : i < ls.length) (d : Diagnostic), reports[i]? = some (some d) ↔
        LineFault profile (earlier ++ ls.take i) ls[i] d := by
  induction ls generalizing earlier last with
  | nil => exact ⟨[], rfl, rfl, fun i hi => nomatch hi⟩
  | cons line ls ih =>
      obtain ⟨reports, hreports, hlength, hfault⟩ := ih (h.concat line)
      refine ⟨ofText? profile last line :: reports, ?_, by simp [hlength], ?_⟩
      · rw [ofLines_readLines_cons, hreports, toList_append_reduceOption]
      · intro i hi d
        cases i with
        | zero =>
            have hline : ofText? profile last line = some d ↔ LineFault profile earlier line d :=
              ⟨h.lineFault, h.ofText?_of_lineFault⟩
            simpa using hline
        | succ i => simpa using hfault i (Nat.lt_of_succ_lt_succ hi) d

/-- The reports of a block are those of its lines one after the other, at most one of each: a line
is reported for what is wrong with it below the lines above. The reports about the order are all
that is reported when only the allowed settings stand in the block. -/
theorem ofLines_readAll_lineFault (profile : KeyProfile) (block : List Char) :
    (∃ reports : List (Option Diagnostic),
      ofLines profile none (SettingLine.readAll block) = reports.reduceOption ∧
      reports.length = (lines block).length ∧
      ∀ (i : Nat) (hi : i < (lines block).length) (d : Diagnostic),
        reports[i]? = some (some d) ↔
          LineFault profile ((lines block).take i) (lines block)[i] d) ∧
    (ofLines profile none (SettingLine.readAll block)).filter isOrderFault =
      ofLines profile none
        ((SettingLine.readAll block).filter (SettingLine.isAllowed profile)) := by
  constructor
  · simpa only [SettingLine.readAll_eq, List.nil_append] using
      (latest_nil profile).exists_reports (lines block)
  · exact filter_ofLines profile none _

/-- An indented setting is unknown, `points` is no key of a question, and neither of the separators
below the comment becomes the last key in order. -/
theorem ofLines_readAll_lineFault_mixedBlock :
    let block := "\n comment=c\ncomment=a\npoints=2\n \nseparator=,\nnote \nseparator=".toList
    ofLines .question none (SettingLine.readAll block) =
        [.unknownKey " comment", .unknownKey "points", .keyOutOfOrder .separator .question,
          .unknownKey "note", .keyOutOfOrder .separator .question] ∧
      ∃ reports : List (Option Diagnostic),
        ofLines .question none (SettingLine.readAll block) = reports.reduceOption ∧
        reports.length = 8 ∧
        reports[5]? = some (some (.keyOutOfOrder .separator .question)) := by
  intro block
  refine ⟨by decide +kernel, ?_⟩
  obtain ⟨⟨reports, hreports, hlength, hfault⟩, -⟩ := ofLines_readAll_lineFault .question block
  have hbar : Key.BarredBy .question .separator "comment=a".toList :=
    ⟨.comment, by decide, by decide, by decide⟩
  refine ⟨reports, hreports, hlength.trans (by decide), (hfault 5 (by decide) _).2 ?_⟩
  exact .outOfOrder (by decide) (by decide) (by decide) hbar

end Diagnostic

end AnswerGrading
