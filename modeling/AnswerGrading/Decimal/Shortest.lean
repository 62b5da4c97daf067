import AnswerGrading.Decimal.Digits

/-!
The shortest decimal for a binary floating-point number: the fewest digits that read back as the
number, and of those the ones nearest to it. The text is positional, never in exponents.
-/

namespace AnswerGrading.Decimal

/-- A positive number `mantissa * 2 ^ exponent`, and whether the next number below is only half as
far as the one above. -/
structure Binary where
  mantissa : Nat
  exponent : Int
  tight : Bool
  deriving DecidableEq, Repr

namespace Binary

/-- A quarter of the number's unit is written as a quotient of whole numbers. -/
def unitNumerator (b : Binary) : Nat :=
  Nat.pow 2 (b.exponent - 2).toNat

def unitDenominator (b : Binary) : Nat :=
  Nat.pow 2 (2 - b.exponent).toNat

def middle (b : Binary) : Nat :=
  4 * b.mantissa * b.unitNumerator

def lower (b : Binary) : Nat :=
  (4 * b.mantissa - if b.tight then 1 else 2) * b.unitNumerator

def upper (b : Binary) : Nat :=
  (4 * b.mantissa + 2) * b.unitNumerator

end Binary

/-- The number `digits * 10 ^ exponent`. -/
structure Scaled where
  digits : Nat
  exponent : Int
  deriving DecidableEq, Repr

namespace Scaled

def numerator (s : Scaled) : Nat :=
  s.digits * Nat.pow 10 s.exponent.toNat

def denominator (s : Scaled) : Nat :=
  Nat.pow 10 (-s.exponent).toNat

/-- Reading the decimal gives the binary number back: it lies between the two halfway points, which
belong to an even mantissa. -/
def readsAs (s : Scaled) (b : Binary) : Bool :=
  let x := s.numerator * b.unitDenominator
  if b.mantissa % 2 = 0 then
    decide (b.lower * s.denominator ≤ x) && decide (x ≤ b.upper * s.denominator)
  else decide (b.lower * s.denominator < x) && decide (x < b.upper * s.denominator)

def floor (b : Binary) (exponent : Int) : Scaled :=
  ⟨b.middle * Nat.pow 10 (-exponent).toNat / (b.unitDenominator * Nat.pow 10 exponent.toNat),
    exponent⟩

def above (s : Scaled) : Scaled :=
  { s with digits := s.digits + 1 }

/-- Nearer to the number than the next decimal of the same exponent; halfway counts for the one
above. -/
def nearer (s : Scaled) (b : Binary) : Bool :=
  decide (2 * b.middle * s.denominator
    < (s.numerator + s.above.numerator) * b.unitDenominator)

def pick? (b : Binary) (exponent : Int) : Option Scaled :=
  let s := floor b exponent
  match s.readsAs b, s.above.readsAs b with
  | true, true => some (if s.nearer b then s else s.above)
  | true, false => some s
  | false, true => some s.above
  | false, false => none

end Scaled

/-- Places before the point; for a number below one, minus the zeros right after the point. -/
def places (b : Binary) : Nat → Int
  | 0 => 0
  | fuel + 1 =>
      let whole := b.middle / b.unitDenominator
      if whole ≠ 0 then (digits whole).length
      else zeros b fuel 1
where
  zeros (b : Binary) : Nat → Nat → Int
    | 0, _ => 0
    | fuel + 1, n =>
        if b.unitDenominator ≤ b.middle * Nat.pow 10 n then 1 - (n : Int) else zeros b fuel (n + 1)

def shortestFrom (b : Binary) (top : Int) : Nat → Nat → Option Scaled
  | 0, _ => none
  | fuel + 1, n =>
      match Scaled.pick? b (top - n) with
      | some s => some s
      | none => shortestFrom b top fuel (n + 1)

def Binary.shortest? (b : Binary) : Option Scaled :=
  shortestFrom b (places b 400) 17 1

/-- Plain positional text; zeros at the end of a fraction are left out. -/
def Scaled.text (s : Scaled) : List Char :=
  if 0 ≤ s.exponent then Decimal.digits s.digits ++ List.replicate s.exponent.toNat '0'
  else
    let places := (-s.exponent).toNat
    let ds := Decimal.digits s.digits
    let ds := List.replicate (places + 1 - ds.length) '0' ++ ds
    let whole := ds.take (ds.length - places)
    let fraction := ((ds.drop (ds.length - places)).reverse.dropWhile (· == '0')).reverse
    if fraction.isEmpty then whole else whole ++ '.' :: fraction

example : Scaled.text ⟨25, -2⟩ = ['0', '.', '2', '5'] := by decide

structure Fields where
  negative : Bool
  exponent : Nat
  fraction : Nat
  deriving DecidableEq, Repr

def Fields.ofBits (bits : Nat) : Fields :=
  ⟨decide (bits / 0x8000000000000000 % 2 = 1), bits / 0x10000000000000 % 2048,
    bits % 0x10000000000000⟩

/-- Without the sign; the least exponent stands for numbers that have no leading one. -/
def Fields.binary (f : Fields) : Binary :=
  if f.exponent = 0 then ⟨f.fraction, -1074, false⟩
  else ⟨0x10000000000000 + f.fraction, (f.exponent : Int) - 1075,
    decide (f.fraction = 0 ∧ 1 < f.exponent)⟩

def Fields.text (f : Fields) : List Char :=
  let sign := if f.negative then ['-'] else []
  if f.exponent = 2047 then
    if f.fraction = 0 then sign ++ ['i', 'n', 'f'] else ['N', 'a', 'N']
  else if f.exponent = 0 ∧ f.fraction = 0 then sign ++ ['0']
  else match f.binary.shortest? with
    | some s => sign ++ s.text
    | none => sign ++ ['0']

def ofFloat (x : Float) : String :=
  .ofList (Fields.ofBits x.toBits.toNat).text

end AnswerGrading.Decimal
