import AnswerGrading.Regex.Regular

/-!
Regular expressions as instructions. A machine goes through its instructions in order of preference
and visits each fork at each position once, so it finds the end of the match that is preferred above
all others in time linear in the text.
-/

namespace AnswerGrading.Regex

/-- States are numbers of instructions; a fork prefers its first state. -/
inductive Instruction where
  | stop
  | char (s : CharSet) (next : Nat)
  | anchor (a : Anchor) (next : Nat)
  | fork (first second : Nat)
  deriving DecidableEq, Repr

structure Machine where
  code : Array Instruction
  start : Nat
  deriving DecidableEq, Repr

def Regular.nullable : Regular → Bool
  | .empty => true
  | .char _ => false
  | .anchor _ => true
  | .seq r s => r.nullable && s.nullable
  | .alt r s => r.nullable || s.nullable
  | .loop least _ _ r => least == 0 || r.nullable

def Regular.weight : Regular → Nat
  | .empty => 1
  | .char _ => 1
  | .anchor _ => 1
  | .seq r s => r.weight + s.weight
  | .alt r s => r.weight + s.weight + 1
  | .loop least none _ r => max least 1 * r.weight + 1
  | .loop least (some most) _ r => max least most * (r.weight + 1)

def maxWeight : Nat := 327680

namespace Machine

/-- To `again` or to `out`, the former preferred when the loop is greedy. -/
def choice (greedy : Bool) (again out : Nat) : Instruction :=
  if greedy then .fork again out else .fork out again

def push (code : Array Instruction) (i : Instruction) : Machine :=
  ⟨code.push i, code.size⟩

def times (f : Machine → Machine) : Nat → Machine → Machine
  | 0, m => m
  | n + 1, m => times f n (f m)

def optional (f : Machine → Machine) (greedy : Bool) (out : Nat) (m : Machine) : Machine :=
  let body := f m
  push body.code (choice greedy body.start out)

def plus (f : Machine → Machine) (greedy : Bool) (m : Machine) : Machine :=
  let loop := m.code.size
  let body := f ⟨m.code.push .stop, loop⟩
  ⟨body.code.setIfInBounds loop (choice greedy body.start m.start), body.start⟩

def star (f : Machine → Machine) (greedy : Bool) (m : Machine) : Machine :=
  let loop := m.code.size
  let body := f ⟨m.code.push .stop, loop⟩
  ⟨body.code.setIfInBounds loop (choice greedy body.start m.start), loop⟩

end Machine

/-- Puts the expression in front of a machine. Any number of rounds of something that may be empty
are one round or more, or none: an empty round then leads out of the loop and not back. -/
def Regular.before : Regular → Machine → Machine
  | .empty, m => m
  | .char s, m => Machine.push m.code (.char s m.start)
  | .anchor a, m => Machine.push m.code (.anchor a m.start)
  | .seq r s, m => r.before (s.before m)
  | .alt r s, m =>
      let right := s.before m
      let left := r.before ⟨right.code, m.start⟩
      Machine.push left.code (.fork left.start right.start)
  | .loop least (some most) greedy r, m =>
      Machine.times r.before least
        (Machine.times (Machine.optional r.before greedy m.start) (most - least) m)
  | .loop 0 none greedy r, m =>
      if r.nullable then
        let loop := Machine.plus r.before greedy m
        Machine.push loop.code (Machine.choice greedy loop.start m.start)
      else Machine.star r.before greedy m
  | .loop (least + 1) none greedy r, m =>
      Machine.times r.before least (Machine.plus r.before greedy m)

def Regular.machine (r : Regular) : Machine :=
  r.before ⟨#[.stop], 0⟩

namespace Machine

/-- Depth first from the pending pairs of state and position. `seen` has a bit for each pair whose
fork has been taken. -/
def run (code : Array Instruction) (text : Array Char) :
    Nat → Nat → List (Nat × Nat) → Option Nat
  | 0, _, _ => none
  | _ + 1, _, [] => none
  | fuel + 1, seen, (q, i) :: pending =>
      match code[q]? with
      | none => run code text fuel seen pending
      | some .stop => some i
      | some (.char s next) =>
          if text[i]?.any s.mem then run code text fuel seen ((next, i + 1) :: pending)
          else run code text fuel seen pending
      | some (.anchor a next) =>
          if a.holds text i then run code text fuel seen ((next, i) :: pending)
          else run code text fuel seen pending
      | some (.fork first second) =>
          let mark := i * code.size + q
          if seen.testBit mark then run code text fuel seen pending
          else run code text fuel (seen ||| 1 <<< mark) ((first, i) :: (second, i) :: pending)

/-- Each fork is taken at most once at each position, and every other instruction moves on; between
two forks there are fewer moves than instructions. -/
def fuel (m : Machine) (size : Nat) : Nat :=
  (2 * m.code.size * (size + 1) + 2) * (m.code.size + 1)

def preferred? (m : Machine) (text : Array Char) (i : Nat) : Option Nat :=
  run m.code text (m.fuel text.size) 0 [(m.start, i)]

end Machine

end AnswerGrading.Regex
