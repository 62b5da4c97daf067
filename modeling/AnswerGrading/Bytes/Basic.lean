namespace AnswerGrading

abbrev Bytes := List UInt8

namespace Bytes

/-- `count` bytes of a number, the lowest first. -/
def ofNat : Nat → Nat → Bytes
  | 0, _ => []
  | count + 1, n => UInt8.ofNat (n % 256) :: ofNat count (n / 256)

def toNat : Bytes → Nat
  | [] => 0
  | b :: bs => b.toNat + 256 * toNat bs

@[simp] theorem length_ofNat (count n : Nat) : (ofNat count n).length = count := by
  induction count generalizing n with
  | zero => rfl
  | succ count ih => simp [ofNat, ih]

def capacity : Nat → Nat
  | 0 => 1
  | count + 1 => 256 * capacity count

theorem toNat_ofNat {count n : Nat} (h : n < capacity count) : toNat (ofNat count n) = n := by
  induction count generalizing n with
  | zero => simp_all [ofNat, toNat, capacity]
  | succ count ih =>
      have hd : n / 256 < capacity count := by
        simp only [capacity] at h
        omega
      have hm : (UInt8.ofNat (n % 256)).toNat = n % 256 := by
        simp
      simp only [ofNat, toNat, ih hd, hm]
      omega

def split? (count : Nat) (bs : Bytes) : Option (Bytes × Bytes) :=
  if count ≤ bs.length then some (bs.take count, bs.drop count) else none

theorem split?_append {count : Nat} {bs : Bytes} (h : bs.length = count) (rest : Bytes) :
    split? count (bs ++ rest) = some (bs, rest) := by
  subst h
  simp [split?]

def slice (bs : Bytes) (start count : Nat) : Bytes :=
  (bs.drop start).take count

theorem slice_append {start count : Nat} {bs cs : Bytes} (hb : bs.length = start)
    (hc : cs.length = count) (rest : Bytes) : slice (bs ++ (cs ++ rest)) start count = cs := by
  subst hb hc
  simp [slice]

def nibble (n : Nat) : Char :=
  (Nat.toDigits 16 n).headD '0'

def hex (bs : Bytes) : String :=
  .ofList (bs.flatMap fun b => [nibble (b.toNat / 16), nibble (b.toNat % 16)])

def nibble? (c : Char) : Option Nat :=
  (List.range 16).find? fun n => nibble n == c.toLower

def ofHex? : List Char → Option Bytes
  | [] => some []
  | a :: b :: cs => do return UInt8.ofNat (16 * (← nibble? a) + (← nibble? b)) :: (← ofHex? cs)
  | [_] => none

def overwrite (bs : Bytes) (start : Nat) (new : Bytes) : Bytes :=
  bs.take start ++ new ++ bs.drop (start + new.length)

end Bytes

end AnswerGrading
