import AnswerGrading.Regex.Escape

/-!
Reads the text of a pattern. The reader goes through the text once and keeps the groups that are
open on a stack, each with the alternatives and pieces read so far around it.
-/

namespace AnswerGrading.Regex

structure Modes where
  caseless : Bool := false
  multiline : Bool := false
  dotNewline : Bool := false
  swapGreed : Bool := false
  spaced : Bool := false
  deriving DecidableEq, Repr

inductive Scope where
  | capture (group : Nat)
  | modes (outer : Modes)
  | look (behind negated : Bool)
  | atomic
  | condition
  | branches (condition : Expression) (start : Nat)
  deriving DecidableEq, Repr

/-- Alternatives and pieces, the latest first. -/
structure Level where
  alternatives : List Expression := []
  pieces : List Expression := []
  deriving DecidableEq, Repr

def Level.body (l : Level) : Expression :=
  match l.alternatives.reverse with
  | [] => .sequence l.pieces.reverse
  | e :: es => .choice e (es ++ [(Expression.sequence l.pieces.reverse).alone])

def Level.push (e : Expression) (l : Level) : Level :=
  if e = .empty then l else { l with pieces := e :: l.pieces }

def Level.bar (l : Level) : Level :=
  ⟨.sequence l.pieces.reverse :: l.alternatives, []⟩

structure Reading where
  modes : Modes := {}
  groups : Nat := 0
  names : List (List Char × Nat) := []
  referred : List Nat := []
  numbered : Bool := false
  level : Level := {}
  opened : List (Scope × Level) := []
  deriving DecidableEq, Repr

structure Source where
  expression : Expression
  referred : List Nat
  groups : Nat
  deriving DecidableEq, Repr

def maxDepth : Nat := 64

def afterComment : List Char → Option (List Char)
  | [] => none
  | ')' :: cs => some cs
  | ['\\'] => none
  | '\\' :: _ :: cs => afterComment cs
  | _ :: cs => afterComment cs

def isLayout (c : Char) : Bool :=
  c == ' ' || c == '\t' || c == '\n' || c == '\r'

/-- Comments in groups are skipped always, white space and comments to the end of a line only in
spaced mode. -/
def skipLayout (spaced : Bool) : Nat → List Char → Except Defect (List Char)
  | 0, cs => .ok cs
  | fuel + 1, '(' :: '?' :: '#' :: cs =>
      match afterComment cs with
      | some rest => skipLayout spaced fuel rest
      | none => .error .unclosedGroup
  | fuel + 1, c :: cs =>
      if spaced && c == '#' then skipLayout spaced fuel ((cs.dropWhile (· != '\n')).drop 1)
      else if spaced && isLayout c then skipLayout spaced fuel cs
      else .ok (c :: cs)
  | _ + 1, [] => .ok []

def Modes.skip (m : Modes) (cs : List Char) : Except Defect (List Char) :=
  skipLayout m.spaced cs.length cs

theorem Modes.skip_of_not_layout {m : Modes} {c : Char} {cs : List Char} (hm : m.spaced = false)
    (hc : c ≠ '(') : m.skip (c :: cs) = .ok (c :: cs) := by
  simp only [Modes.skip, hm, List.length_cons]
  unfold skipLayout
  split <;> simp_all

structure Quantity where
  least : Nat
  most : Option Nat
  deriving DecidableEq, Repr

/-- `least,most` up to the closing brace; either may be missing, and a number alone is both. -/
def braces? (m : Modes) (cs : List Char) : Except Defect (Quantity × List Char) := do
  let cs ← m.skip cs
  let (least, cs) ← match decimal? cs, cs with
    | some found, _ => pure found
    | none, ',' :: _ => pure (0, cs)
    | none, _ => .error .badRepeat
  let cs ← m.skip cs
  match cs with
  | '\x7d' :: rest => return (⟨least, some least⟩, rest)
  | ',' :: cs =>
      let cs ← m.skip cs
      let (most, cs) := match decimal? cs with
        | some (n, cs) => (some n, cs)
        | none => (none, cs)
      let cs ← m.skip cs
      match cs with
      | '\x7d' :: rest => return (⟨least, most⟩, rest)
      | _ => .error .badRepeat
  | _ => .error .badRepeat

/-- A brace that starts no quantifier is a literal. -/
def quantity? (m : Modes) : List Char → Option (Quantity × List Char)
  | '?' :: rest => some (⟨0, some 1⟩, rest)
  | '*' :: rest => some (⟨0, none⟩, rest)
  | '+' :: rest => some (⟨1, none⟩, rest)
  | '\x7b' :: rest => (braces? m rest).toOption
  | _ => none

/-- The piece that an atom and the quantifier after it make: `?` after the quantifier asks for few
rounds, and `+` after that makes it atomic. -/
def quantify (m : Modes) (e : Expression) (cs : List Char) :
    Except Defect (Expression × List Char) := do
  let cs ← m.skip cs
  match quantity? m cs with
  | none => return (e, cs)
  | some (q, rest) =>
      if e.repeatable then
        let rest ← m.skip rest
        let (greedy, rest) := match rest with
          | '?' :: rest => (false, rest)
          | rest => (true, rest)
        let piece := Expression.loop q.least q.most (greedy != m.swapGreed) e
        match rest with
        | '+' :: rest => return (.atomic piece, rest)
        | rest => return (piece, rest)
      else .error .nothingToRepeat

/-- Options up to the bracket or colon that ends them. The flag tells whether a colon did. -/
def options (start : Nat) : Nat → Bool → Modes → List Char →
    Except Defect (Modes × Bool × List Char)
  | 0, _, _, _ => .error .unclosedGroup
  | fuel + 1, off, m, cs => do
      match ← m.skip cs with
      | [] => .error .unclosedGroup
      | 'i' :: cs => options start fuel off { m with caseless := !off } cs
      | 'm' :: cs => options start fuel off { m with multiline := !off } cs
      | 's' :: cs => options start fuel off { m with dotNewline := !off } cs
      | 'U' :: cs => options start fuel off { m with swapGreed := !off } cs
      | 'x' :: cs => options start fuel off { m with spaced := !off } cs
      | 'u' :: cs => if off then .error .unknownOption else options start fuel off m cs
      | '-' :: cs => if off then .error .unknownOption else options start fuel true m cs
      | ')' :: rest =>
          if rest.length + 1 = start ∨ (off ∧ rest.length + 2 = start) then .error .unknownOption
          else return (m, false, rest)
      | ':' :: rest =>
          if off ∧ rest.length + 2 = start then .error .unknownOption
          else return (m, true, rest)
      | _ => .error .unknownOption

namespace Reading

def caselessChar (r : Reading) (c : Char) : Expression :=
  .char ((CharSet.one c).foldedIf r.modes.caseless)

def push (e : Expression) (r : Reading) : Reading :=
  { r with level := r.level.push e }

def bar (r : Reading) : Reading :=
  { r with level := r.level.bar }

def openScope (scope : Scope) (r : Reading) : Reading :=
  { r with level := {}, opened := (scope, r.level) :: r.opened }

/-- Named groups and numbered references do not go together. The test is made where a level without
alternatives ends. -/
def levelBody (r : Reading) : Except Defect Expression :=
  if r.level.alternatives = [] ∧ r.numbered ∧ r.names ≠ [] then .error .mixedReferences
  else .ok r.level.body

def newCapture (r : Reading) : Reading :=
  { r with groups := r.groups + 1 }.openScope (.capture (r.groups + 1))

def newNamed (id : List Char) (r : Reading) : Reading :=
  { r with groups := r.groups + 1, names := (id, r.groups + 1) :: r.names }.openScope
    (.capture (r.groups + 1))

/-- A group can be referred to once it has been opened. -/
def reference (group : Nat) (r : Reading) : Except Defect (Expression × Reading) :=
  if group ≤ r.groups then .ok (.reference group, { r with referred := group :: r.referred })
  else .error .unknownGroup

def numberedReference (group : Nat) (r : Reading) : Except Defect (Expression × Reading) :=
  { r with numbered := true }.reference group

/-- A name that no group has may still be a number, counted back from here after a hyphen. -/
def groupOf? (id : List Char) (r : Reading) : Option Nat :=
  match r.names.lookup id, id with
  | some g, _ => some g
  | none, '-' :: ds =>
      match decimal? ds with
      | some (0, []) => some 0
      | some (n, []) => if n ≤ r.groups + 1 then some (r.groups + 1 - n) else none
      | _ => none
  | none, ds =>
      match decimal? ds with
      | some (n, []) => some n
      | _ => none

def namedReference (id : List Char) (r : Reading) : Except Defect (Expression × Reading) :=
  match r.groupOf? id with
  | some g => r.reference g
  | none => .error .unknownGroup

def testing : Expression → Expression
  | .reference g => .isSet g
  | e => e

/-- The branches of a conditional: what stands before the first bar, and what stands after it.
Without any text a reference asks whether its group is set. -/
def conditional (condition body : Expression) (blank : Bool) : Except Defect Expression :=
  if blank then
    match condition with
    | .reference g => .ok (.isSet g)
    | _ => .error .emptyConditional
  else
    let (yes, no) := match body with
      | .alt e f => (e, f)
      | e => (e, .empty)
    if yes = .empty ∧ no = .empty then .ok (testing condition)
    else .ok (.branch (testing condition) yes no)

/-- Closes the innermost group. A condition is followed by the branches of its conditional. The
second argument is the length of the text from the closing bracket on. -/
def closeScope (r : Reading) (here : Nat) : Except Defect (Reading × Option Expression) := do
  match r.opened with
  | [] => .error .unopenedGroup
  | (scope, parent) :: opened =>
      let body ← r.levelBody
      let r := { r with level := parent, opened := opened }
      match scope with
      | .capture g => return (r, some (.capture g body))
      | .modes outer => return ({ r with modes := outer }, some body)
      | .look behind negated => return (r, some (.look behind negated body))
      | .atomic => return (r, some (.atomic body))
      | .condition => return (r.openScope (.branches body (here - 1)), none)
      | .branches c start =>
          let e ← conditional c body (here = start)
          return (r, some e)

def groupConditional (found : Except Defect (Expression × Reading)) (cs : List Char) :
    Except Defect (Reading × Option Expression × List Char) := do
  let (e, r) ← found
  match cs with
  | ')' :: rest => return (r.openScope (.branches e rest.length), none, rest)
  | _ => .error .unclosedGroup

def openConditional (r : Reading) (cs : List Char) :
    Except Defect (Reading × Option Expression × List Char) :=
  match decimal? cs, quotedName? cs, cs with
  | some (n, rest), _, _ => groupConditional (r.numberedReference n) rest
  | none, some (id, rest), _ => groupConditional (r.namedReference id) rest
  | none, none, c :: _ =>
      if c = '<' ∨ c = Char.ofNat 39 then .error .badName
      else if c.isDigit then .error .unknownGroup
      else .ok (r.openScope .condition, none, cs)
  | none, none, [] => .error .unclosedGroup

def openOptions (r : Reading) (cs : List Char) :
    Except Defect (Reading × Option Expression × List Char) := do
  let (m, colon, rest) ← options cs.length (cs.length + 1) false r.modes cs
  if colon then return ({ r.openScope (.modes r.modes) with modes := m }, none, rest)
  else return ({ r with modes := m }, some .empty, rest)

/-- What follows an opening bracket. Inside a group its own modes hold; after it the modes it
changed hold on, unless it was opened with options and a colon. -/
def openGroup (r : Reading) (cs : List Char) :
    Except Defect (Reading × Option Expression × List Char) := do
  if maxDepth ≤ r.opened.length + 1 then .error .tooDeep
  match ← r.modes.skip cs with
  | '?' :: '=' :: rest => return (r.openScope (.look false false), none, rest)
  | '?' :: '!' :: rest => return (r.openScope (.look false true), none, rest)
  | '?' :: '<' :: '=' :: rest => return (r.openScope (.look true false), none, rest)
  | '?' :: '<' :: '!' :: rest => return (r.openScope (.look true true), none, rest)
  | '?' :: '<' :: cs | '?' :: 'P' :: '<' :: cs =>
      match groupName? '>' cs with
      | some (id, rest) => return (r.newNamed id, none, rest)
      | none => .error .badName
  | '?' :: 'P' :: '=' :: cs =>
      match groupName? ')' cs with
      | some (id, rest) =>
          let (e, r) ← r.namedReference id
          return (r, some e, rest)
      | none => .error .badName
  | '?' :: '>' :: rest => return (r.openScope .atomic, none, rest)
  | '?' :: '(' :: rest => r.openConditional rest
  | '?' :: rest => r.openOptions rest
  | rest => return (r.newCapture, none, rest)

def escaped (r : Reading) (cs : List Char) :
    Except Defect (Reading × Option Expression × List Char) := do
  let (found, rest) ← escape false r.modes.caseless cs
  match found with
  | .numbered c => return (r, some (r.caselessChar c), rest)
  | .exact c => return (r, some (.char (.one c)), rest)
  | .set s => return (r, some (.char s), rest)
  | .piece e => return (r, some e, rest)
  | .number n =>
      let (e, r) ← r.numberedReference n
      return (r, some e, rest)
  | .name id =>
      let (e, r) ← r.namedReference id
      return (r, some e, rest)

def step (r : Reading) : List Char → Except Defect (Reading × Option Expression × List Char)
  | [] => .error .unclosedGroup
  | ')' :: rest => do
      let (r, e) ← r.closeScope (rest.length + 1)
      return (r, e, rest)
  | '|' :: rest => .ok (r.bar, none, rest)
  | '*' :: _ => .error .nothingToRepeat
  | '+' :: _ => .error .nothingToRepeat
  | '?' :: _ => .error .nothingToRepeat
  | '(' :: rest => r.openGroup rest
  | '\\' :: rest => r.escaped rest
  | '[' :: rest => (bracket r.modes.caseless rest).map fun (e, rest) => (r, some e, rest)
  | '.' :: rest =>
      .ok (r, some (.char (if r.modes.dotNewline then .any else .notNewline)), rest)
  | '^' :: rest =>
      .ok (r, some (.anchor (if r.modes.multiline then .lineStart else .textStart)), rest)
  | '$' :: rest =>
      .ok (r, some (.anchor (if r.modes.multiline then .lineEnd else .textEnd)), rest)
  | c :: rest => .ok (r, some (r.caselessChar c), rest)

def finish (r : Reading) : Except Defect Source := do
  match r.opened with
  | [] =>
      let body ← r.levelBody
      return ⟨body, r.referred, r.groups⟩
  | _ => .error .unclosedGroup

/-- Each step takes at least one character; the first argument bounds their number. -/
def run : Nat → Reading → List Char → Except Defect Source
  | 0, r, _ => r.finish
  | fuel + 1, r, cs => do
      match ← r.modes.skip cs with
      | [] => r.finish
      | c :: cs =>
          let (r, atom, rest) ← r.step (c :: cs)
          match atom with
          | none => run fuel r rest
          | some e =>
              let (e, rest) ← quantify r.modes e rest
              run fuel (r.push e) rest

end Reading

def Source.read (m : Modes) (cs : List Char) : Except Defect Source :=
  Reading.run (cs.length + 1) { modes := m } cs

end AnswerGrading.Regex
