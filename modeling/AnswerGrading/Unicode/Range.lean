namespace AnswerGrading.Unicode

structure Range where
  first : Nat
  last : Nat
  deriving DecidableEq, Repr

def Range.contains (r : Range) (c : Char) : Bool :=
  decide (r.first ≤ c.toNat) && decide (c.toNat ≤ r.last)

def Range.containsAny (rs : List Range) (c : Char) : Bool :=
  rs.any (·.contains c)

def hexDigit? (c : Char) : Option Nat :=
  if '0' ≤ c ∧ c ≤ '9' then some (c.toNat - '0'.toNat)
  else if 'a' ≤ c ∧ c ≤ 'f' then some (c.toNat - 'a'.toNat + 10)
  else if 'A' ≤ c ∧ c ≤ 'F' then some (c.toNat - 'A'.toNat + 10)
  else none

def hexValue (cs : List Char) : Nat :=
  cs.foldl (fun n c => 16 * n + (hexDigit? c).getD 0) 0

/-- Reads `41-5a` as a range and `aa` as a single character. -/
def Range.ofText (cs : List Char) : Range :=
  let first := cs.takeWhile (· != '-')
  match cs.dropWhile (· != '-') with
  | _ :: last => ⟨hexValue first, hexValue last⟩
  | [] => ⟨hexValue first, hexValue first⟩

def Range.ofRows (rows : List String) : List Range :=
  rows.flatMap fun row => (row.splitOn " ").map fun w => Range.ofText w.toList

end AnswerGrading.Unicode
