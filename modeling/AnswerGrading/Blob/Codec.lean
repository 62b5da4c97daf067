import AnswerGrading.Bytes.Basic

/-!
How values are written as bytes. A number below 251 is one byte; a larger one follows a byte that
says whether it takes two, four or eight. Lists and texts come after their length.
-/

namespace AnswerGrading.Codec

abbrev Read (α : Type) := Bytes → Option (α × Bytes)

def writeNumber (n : Nat) : Bytes :=
  if n < 251 then [UInt8.ofNat n]
  else if n < UInt16.size then 251 :: Bytes.ofNat 2 n
  else if n < UInt32.size then 252 :: Bytes.ofNat 4 n
  else 253 :: Bytes.ofNat 8 n

def readWord (count : Nat) : Read Nat := fun bs => do
  let (w, rest) ← Bytes.split? count bs
  return (w.toNat, rest)

/-- Numbers of eight bytes are read only where `long` allows them. -/
def readNumber (long : Bool) : Read Nat
  | [] => none
  | b :: bs =>
      if b < 251 then some (b.toNat, bs)
      else if b = 251 then readWord 2 bs
      else if b = 252 then readWord 4 bs
      else if b = 253 ∧ long then readWord 8 bs
      else none

theorem readWord_ofNat {count n : Nat} (h : n < Bytes.capacity count) (rest : Bytes) :
    readWord count (Bytes.ofNat count n ++ rest) = some (n, rest) := by
  simp [readWord, Bytes.split?_append (Bytes.length_ofNat count n), Bytes.toNat_ofNat h]

theorem readNumber_writeNumber {long : Bool} {n : Nat} (h : n < UInt64.size)
    (hl : long = true ∨ n < UInt32.size) (rest : Bytes) :
    readNumber long (writeNumber n ++ rest) = some (n, rest) := by
  unfold writeNumber
  split
  · rename_i hn
    have ht : (UInt8.ofNat n).toNat = n := by simp; omega
    have hlt : UInt8.ofNat n < 251 := by
      rw [UInt8.lt_iff_toNat_lt, ht]
      exact hn
    simp only [List.cons_append, List.nil_append, readNumber, if_pos hlt, ht]
  · split
    · simpa [readNumber] using @readWord_ofNat 2 n ‹_› rest
    · split
      · simpa [readNumber] using @readWord_ofNat 4 n ‹_› rest
      · rename_i hn
        obtain rfl : long = true := hl.resolve_right hn
        simpa [readNumber] using @readWord_ofNat 8 n h rest

def writeText (s : String) : Bytes :=
  let bytes := s.toUTF8.data.toList
  writeNumber bytes.length ++ bytes

def readText : Read String := fun bs => do
  let (n, bs) ← readNumber true bs
  let (text, rest) ← Bytes.split? n bs
  return (← String.fromUTF8? ⟨text.toArray⟩, rest)

def writeFloat (x : Float) : Bytes :=
  Bytes.ofNat 8 x.toBits.toNat

def readFloat : Read Float := fun bs => do
  let (n, rest) ← readWord 8 bs
  return (.ofBits (UInt64.ofNat n), rest)

def writeOption {α : Type} (write : α → Bytes) : Option α → Bytes
  | none => [0]
  | some a => 1 :: write a

def readOption {α : Type} (read : Read α) : Read (Option α)
  | 0 :: bs => some (none, bs)
  | 1 :: bs => (read bs).map fun (a, rest) => (some a, rest)
  | _ => none

def readMany {α : Type} (read : Read α) : Nat → Read (List α)
  | 0, bs => some ([], bs)
  | n + 1, bs => do
      let (a, bs) ← read bs
      let (as, rest) ← readMany read n bs
      return (a :: as, rest)

def writeList {α : Type} (write : α → Bytes) (as : List α) : Bytes :=
  writeNumber as.length ++ as.flatMap write

def readList {α : Type} (read : Read α) : Read (List α) := fun bs => do
  let (n, bs) ← readNumber true bs
  readMany read n bs

theorem readOption_writeOption {α : Type} {write : α → Bytes} {read : Read α} {o : Option α}
    (h : ∀ a ∈ o, ∀ rest, read (write a ++ rest) = some (a, rest)) (rest : Bytes) :
    readOption read (writeOption write o ++ rest) = some (o, rest) := by
  cases o with
  | none => rfl
  | some a => simp [writeOption, readOption, h a rfl]

theorem readMany_flatMap {α : Type} {write : α → Bytes} {read : Read α} {as : List α}
    (h : ∀ a ∈ as, ∀ rest, read (write a ++ rest) = some (a, rest)) (rest : Bytes) :
    readMany read as.length (as.flatMap write ++ rest) = some (as, rest) := by
  induction as with
  | nil => rfl
  | cons a as ih =>
      have ha := h a (List.mem_cons_self ..)
      have has := ih fun b hb => h b (List.mem_cons_of_mem _ hb)
      simp [readMany, List.append_assoc, ha, has]

theorem readList_writeList {α : Type} {write : α → Bytes} {read : Read α} {as : List α}
    (hn : as.length < UInt64.size)
    (h : ∀ a ∈ as, ∀ rest, read (write a ++ rest) = some (a, rest)) (rest : Bytes) :
    readList read (writeList write as ++ rest) = some (as, rest) := by
  rw [writeList, List.append_assoc, readList, readNumber_writeNumber hn (.inl rfl)]
  exact readMany_flatMap h rest

end AnswerGrading.Codec
