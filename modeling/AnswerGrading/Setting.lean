import AnswerGrading.Decimal.Digits
import AnswerGrading.Text

/-!
Settings: the `key=value` lines below an options block. A line is a setting when it starts with the
name of a key and an equals sign.
-/

namespace AnswerGrading

inductive Key where
  | separator
  | comment
  | feedback
  | points
  | size
  deriving DecidableEq, Repr

namespace Key

def all : List Key :=
  [.separator, .comment, .feedback, .points, .size]

theorem mem_all (k : Key) : k ∈ all := by
  cases k <;> decide

def name : Key → String
  | .separator => "separator"
  | .comment => "comment"
  | .feedback => "feedback"
  | .points => "points"
  | .size => "size"

def rank : Key → Nat
  | .separator => 0
  | .comment => 1
  | .feedback => 2
  | .points => 3
  | .size => 4

theorem rank_injective {j k : Key} (h : j.rank = k.rank) : j = k := by
  cases j <;> cases k <;> simp_all [rank]

def opening : Key → List Char
  | .separator => ['s', 'e', 'p', 'a', 'r', 'a', 't', 'o', 'r', '=']
  | .comment => ['c', 'o', 'm', 'm', 'e', 'n', 't', '=']
  | .feedback => ['f', 'e', 'e', 'd', 'b', 'a', 'c', 'k', '=']
  | .points => ['p', 'o', 'i', 'n', 't', 's', '=']
  | .size => ['s', 'i', 'z', 'e', '=']

theorem opening_eq (k : Key) : k.opening = k.name.toList ++ ['='] := by
  cases k <;> decide

end Key

inductive KeyProfile where
  | question
  | cloze
  deriving DecidableEq, Repr

namespace KeyProfile

def allowed : KeyProfile → List Key
  | .question => [.separator, .comment]
  | .cloze => Key.all

def allows (p : KeyProfile) (k : Key) : Bool :=
  p.allowed.contains k

def expectedOrder (p : KeyProfile) : String :=
  ", ".intercalate (p.allowed.map Key.name)

end KeyProfile

inductive SettingLine where
  | setting (k : Key) (value : List Char)
  | unknown (line : List Char)
  deriving DecidableEq, Repr

def dropOpening? (opening cs : List Char) : Option (List Char) :=
  if opening.isPrefixOf cs then some (cs.drop opening.length) else none

theorem dropOpening?_append (opening cs : List Char) :
    dropOpening? opening (opening ++ cs) = some cs := by
  simp [dropOpening?]

theorem eq_append_of_dropOpening? {opening cs value : List Char}
    (h : dropOpening? opening cs = some value) : cs = opening ++ value := by
  unfold dropOpening? at h
  split at h
  · rename_i hp
    obtain ⟨t, rfl⟩ := List.isPrefixOf_iff_prefix.1 hp
    simp at h
    rw [h]
  · cases h

def SettingLine.read (line : List Char) : SettingLine :=
  match Key.all.findSome? fun k => (dropOpening? k.opening line).map (k, ·) with
  | some (k, value) => .setting k value
  | none => .unknown line

/-- The lines of a block that hold more than white space. -/
def SettingLine.readAll (block : List Char) : List SettingLine :=
  ((Text.lines block).filter fun l => !(Text.trim l).isEmpty).map SettingLine.read

theorem SettingLine.eq_of_read {line value : List Char} {k : Key}
    (h : SettingLine.read line = .setting k value) : line = k.opening ++ value := by
  unfold SettingLine.read at h
  split at h
  · rename_i j v hf
    cases h
    obtain ⟨_, _, hk⟩ := List.exists_of_findSome?_eq_some hf
    simp only [Option.map_eq_some_iff, Prod.mk.injEq] at hk
    obtain ⟨w, hw, rfl, rfl⟩ := hk
    exact eq_append_of_dropOpening? hw
  · cases h

theorem SettingLine.eq_of_read_unknown {line l : List Char}
    (h : SettingLine.read line = .unknown l) : l = line := by
  unfold SettingLine.read at h
  split at h
  · cases h
  · cases h
    rfl

theorem SettingLine.read_opening (k : Key) (value : List Char) :
    SettingLine.read (k.opening ++ value) = .setting k value := by
  cases k <;> simp [SettingLine.read, Key.all, dropOpening?, Key.opening]

def dropPlus : List Char → List Char
  | '+' :: cs => cs
  | cs => cs

theorem dropPlus_eq_self {cs : List Char} (h : '+' ∉ cs) : dropPlus cs = cs := by
  unfold dropPlus
  split
  · simp at h
  · rfl

/-- A number of 32 bits in decimal digits, a plus sign before them allowed. -/
def word? (cs : List Char) : Option UInt32 :=
  let ds := dropPlus cs
  if ds ≠ [] ∧ ds.all Char.isDigit ∧ Decimal.value ds < UInt32.size then
    some (UInt32.ofNat (Decimal.value ds))
  else none

theorem trim_digits (n : Nat) : Text.trim (Decimal.digits n) = Decimal.digits n := by
  have hs (c : Char) (hc : c ∈ Decimal.digits n) : Unicode.isSpace c = false :=
    Unicode.isSpace_of_isDigit (Decimal.isDigit_of_mem_digits hc)
  cases hd : Decimal.digits n with
  | nil => exact absurd hd (Decimal.digits_ne_nil n)
  | cons c cs =>
      rw [hd] at hs
      exact Text.trimBy_eq_self (hs c (by simp)) fun d hm => hs d (List.mem_of_getLast? hm)

theorem word?_digits (n : UInt32) : word? (Decimal.digits n.toNat) = some n := by
  have hd (c : Char) (hc : c ∈ Decimal.digits n.toNat) : c.isDigit = true :=
    Decimal.isDigit_of_mem_digits hc
  have hplus : dropPlus (Decimal.digits n.toNat) = Decimal.digits n.toNat :=
    dropPlus_eq_self fun h => absurd (hd '+' h) (by decide)
  have hlt : Decimal.value (Decimal.digits n.toNat) < UInt32.size := by
    rw [Decimal.value_digits]
    exact n.toNat_lt
  unfold word?
  rw [hplus, if_pos ⟨Decimal.digits_ne_nil _, List.all_eq_true.2 hd, hlt⟩, Decimal.value_digits,
    UInt32.ofNat_toNat]

end AnswerGrading
