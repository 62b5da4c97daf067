/-!
Option flags. A letter of an options block turns its flag on when it is a capital and off when it is
small; in the older suffix form only capitals count, and `S` and `T` turn off what is on by default.
-/

namespace AnswerGrading

inductive Flag where
  | ignoreCase
  | dotAll
  | pipeSpace
  | redirectSpace
  | anyOrder
  | infiniteSpace
  | trimSpaces
  deriving DecidableEq, Repr

def Flag.all : List Flag :=
  [.ignoreCase, .dotAll, .pipeSpace, .redirectSpace, .anyOrder, .infiniteSpace, .trimSpaces]

theorem Flag.mem_all (f : Flag) : f ∈ Flag.all := by
  cases f <;> decide

def Flag.letter : Flag → Char
  | .ignoreCase => 'I'
  | .dotAll => 'D'
  | .pipeSpace => 'P'
  | .redirectSpace => 'R'
  | .anyOrder => 'O'
  | .infiniteSpace => 'S'
  | .trimSpaces => 'T'

def Flag.ofLetter? : Char → Option Flag
  | 'I' => some .ignoreCase
  | 'D' => some .dotAll
  | 'P' => some .pipeSpace
  | 'R' => some .redirectSpace
  | 'O' => some .anyOrder
  | 'S' => some .infiniteSpace
  | 'T' => some .trimSpaces
  | _ => none

theorem Flag.ofLetter?_letter (f : Flag) : Flag.ofLetter? f.letter = some f := by
  cases f <;> rfl

theorem Flag.letter_of_ofLetter? {c : Char} {f : Flag} (h : Flag.ofLetter? c = some f) :
    f.letter = c := by
  unfold Flag.ofLetter? at h
  split at h <;> cases h <;> rfl

def Flag.onByDefault : Flag → Bool
  | .infiniteSpace => true
  | .trimSpaces => true
  | _ => false

structure Flags where
  ignoreCase : Bool := false
  dotAll : Bool := false
  pipeSpace : Bool := false
  redirectSpace : Bool := false
  anyOrder : Bool := false
  infiniteSpace : Bool := true
  trimSpaces : Bool := true
  deriving DecidableEq, Repr

namespace Flags

def get (fs : Flags) : Flag → Bool
  | .ignoreCase => fs.ignoreCase
  | .dotAll => fs.dotAll
  | .pipeSpace => fs.pipeSpace
  | .redirectSpace => fs.redirectSpace
  | .anyOrder => fs.anyOrder
  | .infiniteSpace => fs.infiniteSpace
  | .trimSpaces => fs.trimSpaces

def set (fs : Flags) (f : Flag) (on : Bool) : Flags :=
  match f with
  | .ignoreCase => { fs with ignoreCase := on }
  | .dotAll => { fs with dotAll := on }
  | .pipeSpace => { fs with pipeSpace := on }
  | .redirectSpace => { fs with redirectSpace := on }
  | .anyOrder => { fs with anyOrder := on }
  | .infiniteSpace => { fs with infiniteSpace := on }
  | .trimSpaces => { fs with trimSpaces := on }

theorem get_set (fs : Flags) (f g : Flag) (on : Bool) :
    (fs.set f on).get g = if f = g then on else fs.get g := by
  cases f <;> cases g <;> rfl

theorem get_default (f : Flag) : ({} : Flags).get f = f.onByDefault := by
  cases f <;> rfl

theorem ext_get {fs gs : Flags} (h : ∀ f, fs.get f = gs.get f) : fs = gs := by
  cases fs
  cases gs
  have h1 := h .ignoreCase
  have h2 := h .dotAll
  have h3 := h .pipeSpace
  have h4 := h .redirectSpace
  have h5 := h .anyOrder
  have h6 := h .infiniteSpace
  have h7 := h .trimSpaces
  simp only [get] at h1 h2 h3 h4 h5 h6 h7
  simp [h1, h2, h3, h4, h5, h6, h7]

def option? (fs : Flags) (c : Char) : Option Flags :=
  (Flag.ofLetter? c.toUpper).map fun f => fs.set f c.isUpper

def legacyOption? (fs : Flags) (c : Char) : Option Flags :=
  (Flag.ofLetter? c).map fun f => fs.set f (!f.onByDefault)

def applyOption (fs : Flags) (c : Char) : Flags :=
  (fs.option? c).getD fs

def applyLegacyOption (fs : Flags) (c : Char) : Flags :=
  (fs.legacyOption? c).getD fs

def ofOptions (cs : List Char) : Flags :=
  cs.foldl applyOption {}

def ofLegacyOptions (cs : List Char) : Flags :=
  cs.foldl applyLegacyOption {}

def letterFor (fs : Flags) (f : Flag) : Char :=
  if fs.get f then f.letter else f.letter.toLower

def render (fs : Flags) : List Char :=
  '/' :: Flag.all.map fs.letterFor ++ ['/']

theorem applyOption_letterFor (fs gs : Flags) (f : Flag) :
    gs.applyOption (fs.letterFor f) = gs.set f (fs.get f) := by
  cases h : fs.get f <;> cases f <;> simp [letterFor, h] <;> rfl

theorem foldl_letterFor (fs gs : Flags) (l : List Flag) :
    (l.map fs.letterFor).foldl applyOption gs = l.foldl (fun gs f => gs.set f (fs.get f)) gs := by
  induction l generalizing gs with
  | nil => rfl
  | cons f l ih => rw [List.map_cons, List.foldl_cons, List.foldl_cons, applyOption_letterFor, ih]

theorem ofOptions_letters (fs : Flags) : ofOptions (Flag.all.map fs.letterFor) = fs :=
  foldl_letterFor fs {} Flag.all

end Flags

def isOptionLetter (c : Char) : Bool :=
  (Flag.ofLetter? c.toUpper).isSome

def isLegacyLetter (c : Char) : Bool :=
  (Flag.ofLetter? c).isSome

theorem Flags.option?_isSome (fs : Flags) (c : Char) :
    (fs.option? c).isSome = isOptionLetter c := by
  simp [Flags.option?, isOptionLetter]

theorem Flags.legacyOption?_isSome (fs : Flags) (c : Char) :
    (fs.legacyOption? c).isSome = isLegacyLetter c := by
  simp [Flags.legacyOption?, isLegacyLetter]

end AnswerGrading
