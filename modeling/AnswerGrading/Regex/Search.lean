import AnswerGrading.Regex.Plan

/-!
Search with backtracking. Each time the search goes back to an alternative it left open, it spends
one of a limited number of retries; without any left it gives up, which is neither a match nor a
mismatch.
-/

namespace AnswerGrading.Regex

structure Place where
  position : Nat
  starts : Array (Option Nat)
  stops : Array (Option Nat)
  deriving DecidableEq, Repr

def Place.start (groups i : Nat) : Place :=
  ⟨i, (Array.replicate (groups + 1) none).setIfInBounds 0 (some i),
    Array.replicate (groups + 1) none⟩

def Place.move (p : Place) (i : Nat) : Place :=
  { p with position := i }

def Place.enter (p : Place) (group : Nat) : Place :=
  { p with starts := p.starts.setIfInBounds group (some p.position) }

def Place.exit (p : Place) (group : Nat) : Place :=
  { p with stops := p.stops.setIfInBounds group (some p.position) }

def Place.held? (p : Place) (group : Nat) : Option (Nat × Nat) :=
  match p.starts[group]?, p.stops[group]? with
  | some (some i), some (some j) => some (i, j - i)
  | _, _ => none

inductive Outcome where
  | found (p : Place) (retries : Nat)
  | failed (retries : Nat)
  | gaveUp
  deriving DecidableEq, Repr

abbrev Resume := Place → Nat → Outcome

def Outcome.orRetry : Outcome → (Nat → Outcome) → Outcome
  | .found p n, _ => .found p n
  | .failed 0, _ => .gaveUp
  | .failed (n + 1), next => next n
  | .gaveUp, _ => .gaveUp

def wordAt (text : Array Char) (i : Nat) : Bool :=
  text[i]?.any Unicode.isWord

def wordBefore (text : Array Char) (i : Nat) : Bool :=
  i != 0 && wordAt text (i - 1)

def isWordBoundary (text : Array Char) (i : Nat) : Bool :=
  wordBefore text i != wordAt text i

def sameText (text : Array Char) (i j n : Nat) : Bool :=
  decide (j + n ≤ text.size) && (List.range n).all fun k => text[i + k]? == text[j + k]?

/-- Where the rounds of a loop go on, given how to run its body and what follows the loop. A loop
whose body may be empty fails in a round, past the least number, that began where the one before it
did. -/
def loopRounds (body : Place → Nat → Resume → Outcome) (least : Nat) (most : Option Nat)
    (greedy progress : Bool) (next : Resume) :
    Nat → Nat → Option Nat → Place → Nat → Outcome
  | 0, _, _, _, _ => .gaveUp
  | fuel + 1, count, last, p, n =>
      let again := fun n => body p n
        (loopRounds body least most greedy progress next fuel (count + 1) (some p.position))
      if most = some count then next p n
      else if progress && decide (least < count) && last == some p.position then .failed n
      else if count < least then again n
      else if greedy then (again n).orRetry (next p)
      else (next p n).orRetry again

/-- Past the least number each round takes a character or fails. -/
def loopFuel (text : Array Char) (least : Nat) (most : Option Nat) (i : Nat) : Nat :=
  max least (most.getD 0) + (text.size - i) + 2

def Plan.run (text : Array Char) : Plan → Place → Nat → Resume → Outcome
  | .skip, p, n, next => next p n
  | .commit m, p, n, next =>
      match m.preferred? text p.position with
      | some i => next (p.move i) n
      | none => .failed n
  | .wordBoundary negated, p, n, next =>
      if isWordBoundary text p.position != negated then next p n else .failed n
  | .seq a b, p, n, next => a.run text p n fun q m => b.run text q m next
  | .alt a b, p, n, next => (a.run text p n next).orRetry fun m => b.run text p m next
  | .loop least most greedy progress a, p, n, next =>
      loopRounds (a.run text) least most greedy progress next
        (loopFuel text least most p.position) 0 none p n
  | .capture g a, p, n, next => a.run text (p.enter g) n fun q m => next (q.exit g) m
  | .back size, p, n, next =>
      if size ≤ p.position then next (p.move (p.position - size)) n else .failed n
  | .stay a, p, n, next => a.run text p n fun q m => next (q.move p.position) m
  | .refuse a, p, n, next =>
      match a.run text p n .found with
      | .found _ m => .failed m
      | o => o.orRetry (next p)
  | .atomic a, p, n, next =>
      match a.run text p n .found with
      | .found q m => next q m
      | o => o
  | .reference g, p, n, next =>
      match p.held? g with
      | some (i, size) =>
          if sameText text i p.position size then next (p.move (p.position + size)) n
          else .failed n
      | none => .failed n
  | .isSet g, p, n, next =>
      match p.starts[g]? with
      | some (some _) => next p n
      | _ => .failed n
  | .branch c a b, p, n, next =>
      match c.run text p n .found with
      | .found q m => a.run text q m next
      | o => o.orRetry fun m => b.run text p m next
  | .searchStart, p, n, next => if p.position = 0 then next p n else .failed n

def retryLimit : Nat := 1000000

def Plan.search (text : Array Char) (groups : Nat) (plan : Plan) : Nat → Nat → Outcome
  | 0, n => plan.run text (.start groups text.size) n .found
  | left + 1, n =>
      (plan.run text (.start groups (text.size - (left + 1))) n .found).orRetry
        (plan.search text groups left)

def Plan.occurs? (text : Array Char) (groups : Nat) (plan : Plan) : Option Bool :=
  match plan.search text groups text.size retryLimit with
  | .found _ _ => some true
  | .failed _ => some false
  | .gaveUp => none

end AnswerGrading.Regex
