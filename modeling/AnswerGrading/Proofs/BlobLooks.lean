import AnswerGrading.Proofs.DigestReading

/-!
Where the readers of blobs look. A reader is told how many bytes there are and sees no others than
those it looks at, so that each place it asks for stands in its text. The readers that work in this
way find what `Blob.decode` and `Blob.sourceDigest` find, and they look at no place that is outside
of the bytes.
-/

namespace AnswerGrading

/-- Asks for `count` bytes from `start` on and goes on with what is there. -/
inductive Look (α : Type) where
  | done (a : α)
  | ask (start count : Nat) (next : Bytes → Look α)

namespace Look

variable {α β : Type}

def run (bs : Bytes) : Look α → α
  | .done a => a
  | .ask start count next => (next (bs.slice start count)).run bs

def Inside (bs : Bytes) : Look α → Prop
  | .done _ => True
  | .ask start count next =>
      start + count ≤ bs.length ∧ (next (bs.slice start count)).Inside bs

def andThen (next : α → Look β) : Look α → Look β
  | .done a => next a
  | .ask start count further => .ask start count fun found => (further found).andThen next

instance : Monad Look where
  pure := .done
  bind l next := l.andThen next

/-- Comes to the answer without a look outside of the bytes. -/
structure Answers (bs : Bytes) (l : Look α) (a : α) : Prop where
  inside : l.Inside bs
  run : l.run bs = a

namespace Answers

variable {bs : Bytes}

theorem done (a : α) : Answers bs (.done a) a :=
  ⟨trivial, rfl⟩

theorem ask {start count : Nat} {next : Bytes → Look α} {a : α} (h : start + count ≤ bs.length)
    (hnext : Answers bs (next (bs.slice start count)) a) : Answers bs (.ask start count next) a :=
  ⟨⟨h, hnext.inside⟩, hnext.run⟩

theorem bind {l : Look α} {next : α → Look β} {a : α} {b : β} (h : Answers bs l a)
    (hnext : Answers bs (next a) b) : Answers bs (l >>= next) b := by
  obtain ⟨hinside, rfl⟩ := h
  -- what is asked first decides which looks come next
  induction l with
  | done a => exact hnext
  | ask start count further ih => exact .ask hinside.1 (ih _ hinside.2 hnext)

end Answers

end Look

/-- The bytes are those of `bs` from `pos` up to `stop`. -/
def Bytes.Stands (bs : Bytes) (pos stop : Nat) (part : Bytes) : Prop :=
  ∃ before after, bs = before ++ (part ++ after) ∧ before.length = pos ∧ pos + part.length = stop

namespace Bytes.Stands

variable {bs front rest part : Bytes} {pos stop : Nat}

theorem stop_le (h : bs.Stands pos stop part) : stop ≤ bs.length := by
  obtain ⟨before, after, rfl, rfl, rfl⟩ := h
  simp only [List.length_append]
  omega

theorem slice_front (h : bs.Stands pos stop (front ++ rest)) :
    bs.slice pos front.length = front := by
  obtain ⟨before, after, rfl, hpos, -⟩ := h
  rw [List.append_assoc]
  exact Bytes.slice_append hpos rfl _

theorem behind (h : bs.Stands pos stop (front ++ rest)) :
    bs.Stands (pos + front.length) stop rest := by
  obtain ⟨before, after, rfl, rfl, rfl⟩ := h
  refine ⟨before ++ front, after, by simp only [List.append_assoc], List.length_append, ?_⟩
  rw [List.length_append]
  omega

theorem of_slice {count : Nat} (h : pos + count ≤ bs.length) :
    bs.Stands pos (pos + count) (bs.slice pos count) := by
  have hlength : (bs.slice pos count).length = count := by
    rw [Bytes.slice, List.length_take, List.length_drop]
    omega
  refine ⟨bs.take pos, (bs.drop pos).drop count, ?_, ?_, ?_⟩
  · rw [Bytes.slice, List.take_append_drop, List.take_append_drop]
  · rw [List.length_take]
    omega
  · rw [hlength]

end Bytes.Stands

/-- Reads a value from the place `pos` on, with nothing from `stop` on, and tells the place behind
it. -/
def Scan (α : Type) := (stop pos : Nat) → Look (Option (α × Nat))

namespace Scan

open Codec

variable {α β : Type} {s t : Scan α} {read other : Read α}

instance : Monad Scan where
  pure a := fun _ pos => .done (some (a, pos))
  bind s next := fun stop pos => do
    match ← s stop pos with
    | some (a, mid) => next a stop mid
    | none => .done none

def fail : Scan α :=
  fun _ _ => .done none

def ofOption : Option α → Scan α
  | some a => pure a
  | none => fail

def bytes (count : Nat) : Scan Bytes := fun stop pos =>
  if pos + count ≤ stop then .ask pos count fun found => .done (some (found, pos + count))
  else .done none

inductive Agrees (bs : Bytes) (stop : Nat) : Option (α × Nat) → Option (α × Bytes) → Prop
  | none : Agrees bs stop none none
  | some {a : α} {pos : Nat} {rest : Bytes} (h : bs.Stands pos stop rest) :
      Agrees bs stop (some (a, pos)) (some (a, rest))

/-- Wherever in other bytes the reader's bytes stand, the scan finds there what the reader reads. -/
def Follows (s : Scan α) (read : Read α) : Prop :=
  ∀ ⦃bs rest : Bytes⦄ ⦃pos stop : Nat⦄, bs.Stands pos stop rest →
    ∃ found, (s stop pos).Answers bs found ∧ Agrees bs stop found (read rest)

namespace Follows

theorem of_eq (h : Follows s read) (he : ∀ rest, other rest = read rest) : Follows s other := by
  rwa [funext he]

theorem pure (a : α) : Follows (Pure.pure a) fun rest => some (a, rest) :=
  fun _ _ _ _ h => ⟨_, .done _, .some h⟩

theorem fail : Follows (Scan.fail : Scan α) fun _ => none :=
  fun _ _ _ _ _ => ⟨_, .done _, .none⟩

theorem bind {next : α → Scan β} {readNext : α → Read β} (h : Follows s read)
    (hnext : ∀ a, Follows (next a) (readNext a)) :
    Follows (s >>= next) fun rest => (read rest).bind fun p => readNext p.1 p.2 := by
  intro bs rest pos stop hstands
  obtain ⟨found, hanswers, hagrees⟩ := h hstands
  cases hread : read rest with
  | none =>
      rw [hread] at hagrees
      cases hagrees
      dsimp only
      rw [hread]
      exact ⟨_, hanswers.bind (.done _), .none⟩
  | some p =>
      rw [hread] at hagrees
      cases hagrees with
      | some hrest =>
          dsimp only
          rw [hread]
          obtain ⟨found, hthen, hagrees⟩ := hnext _ hrest
          exact ⟨found, hanswers.bind hthen, hagrees⟩

theorem ite {c : Prop} [Decidable c] (h : Follows s read) (ht : Follows t other) :
    Follows (if c then s else t) fun rest => if c then read rest else other rest := by
  split
  · exact h
  · exact ht

theorem ofOption (o : Option α) :
    Follows (.ofOption o) fun rest => o.bind fun a => some (a, rest) := by
  cases o with
  | none => exact fail
  | some a => exact pure a

theorem bytes (count : Nat) : Follows (.bytes count) (Bytes.split? count) := by
  intro bs rest pos stop hstands
  have hstop : pos + rest.length = stop := by
    obtain ⟨-, -, -, -, hstop⟩ := hstands
    exact hstop
  unfold Scan.bytes Bytes.split?
  by_cases hcount : count ≤ rest.length
  · have hfront : (rest.take count).length = count := List.length_take_of_le hcount
    rw [← List.take_append_drop count rest] at hstands
    have hslice := hstands.slice_front
    have hbehind := hstands.behind
    rw [hfront] at hslice hbehind
    have hstop' := hstands.stop_le
    rw [if_pos hcount, if_pos (by omega)]
    refine ⟨_, .ask (by omega) (.done _), ?_⟩
    rw [hslice]
    exact .some hbehind
  · rw [if_neg hcount, if_neg (by omega)]
    exact ⟨_, .done _, .none⟩

end Follows

def byte : Scan UInt8 := do
  ofOption (← bytes 1).head?

def word (count : Nat) : Scan Nat := do
  return (← bytes count).toNat

def number (long : Bool) : Scan Nat := do
  let b ← byte
  if b < 251 then return b.toNat
  else if b = 251 then word 2
  else if b = 252 then word 4
  else if b = 253 ∧ long then word 8
  else fail

def text : Scan String := do
  let n ← number true
  ofOption (String.fromUTF8? ⟨(← bytes n).toArray⟩)

def float : Scan Float := do
  return .ofBits (UInt64.ofNat (← word 8))

def option (s : Scan α) : Scan (Option α) := do
  let b ← byte
  if b = 0 then return none
  else if b = 1 then return some (← s)
  else fail

def many (s : Scan α) : Nat → Scan (List α)
  | 0 => pure []
  | n + 1 => do return (← s) :: (← many s n)

def list (s : Scan α) : Scan (List α) := do
  many s (← number true)

def format : Scan FeedbackFormat := do
  ofOption (Payload.formatNumber? (← number false))

def rule : Scan StoredRule := do
  return ⟨← text, ← text, ← float, ← text, ← format⟩

def payload : Scan Payload := do
  return ⟨← option (bytes 32), ← number false, ← list rule⟩

def first? : Read UInt8
  | [] => none
  | b :: bs => some (b, bs)

namespace Follows

theorem byte : Follows byte first? := by
  refine ((Follows.bytes 1).bind fun found => .ofOption found.head?).of_eq fun rest => ?_
  cases rest with
  | nil => rfl
  | cons b bs => simp [first?, Bytes.split?]

theorem word (count : Nat) : Follows (word count) (readWord count) :=
  ((Follows.bytes count).bind fun found => .pure found.toNat).of_eq fun _ => rfl

theorem number (long : Bool) : Follows (number long) (readNumber long) := by
  have hbyte (b : UInt8) := (pure b.toNat).ite (c := b < 251) <| (word 2).ite (c := b = 251) <|
    (word 4).ite (c := b = 252) <| (word 8).ite (c := b = 253 ∧ long) fail
  refine (byte.bind hbyte).of_eq fun rest => ?_
  cases rest <;> rfl

theorem text : Follows text readText :=
  ((number true).bind fun n => (bytes n).bind fun _ => .ofOption _).of_eq fun _ => rfl

theorem float : Follows float readFloat :=
  ((word 8).bind fun _ => .pure _).of_eq fun _ => rfl

theorem option (h : Follows s read) : Follows (option s) (readOption read) := by
  have hbyte (b : UInt8) := (pure (none : Option α)).ite (c := b = 0) <|
    (h.bind fun a => .pure (some a)).ite (c := b = 1) .fail
  refine (byte.bind hbyte).of_eq fun rest => ?_
  cases rest with
  | nil => rfl
  | cons b bs =>
      simp only [first?, Option.bind_some]
      by_cases h0 : b = 0
      · subst h0
        rfl
      · rw [if_neg h0]
        by_cases h1 : b = 1
        · subst h1
          exact Option.map_eq_bind
        · rw [if_neg h1]
          simp [readOption, h0, h1]

theorem many (h : Follows s read) : (n : Nat) → Follows (many s n) (readMany read n)
  | 0 => pure []
  | n + 1 => (h.bind fun _ => (h.many n).bind fun _ => .pure _).of_eq fun _ => rfl

theorem list (h : Follows s read) : Follows (list s) (readList read) :=
  ((number true).bind fun n => h.many n).of_eq fun _ => rfl

theorem format : Follows format Payload.readFormat :=
  ((number false).bind fun _ => .ofOption _).of_eq fun _ => rfl

theorem rule : Follows rule Payload.readRule :=
  (text.bind fun _ => text.bind fun _ => float.bind fun _ => text.bind fun _ =>
    format.bind fun _ => .pure _).of_eq fun _ => rfl

end Follows

theorem Agrees.map_fst {bs : Bytes} {stop : Nat} {found : Option (α × Nat)}
    {o : Option (α × Bytes)} (h : Agrees bs stop found o) :
    found.map Prod.fst = o.map Prod.fst := by
  cases h <;> rfl

theorem payload_answers {bs part : Bytes} {pos stop : Nat} (h : bs.Stands pos stop part) :
    ∃ found, (payload stop pos).Answers bs found ∧ found.map Prod.fst = Payload.read? part := by
  have hpayload := (Follows.option (.bytes 32)).bind fun digest => (Follows.number false).bind
    fun count => (Follows.list .rule).bind fun rules => .pure (⟨digest, count, rules⟩ : Payload)
  obtain ⟨found, hanswers, hagrees⟩ := hpayload h
  -- the bytes behind the rules are left, and do not count
  refine ⟨found, hanswers, hagrees.map_fst.trans ?_⟩
  simp only [Payload.read?, Option.map_bind, Function.comp_def, Option.map_some]
  rfl

end Scan

variable {α β : Type} {bs : Bytes}

abbrev BlobLook (α : Type) := ExceptT BlobError Look α

namespace BlobLook

def bytesAt (start count : Nat) : BlobLook Bytes :=
  .mk (.ask start count fun found => .done (.ok found))

def Answers (bs : Bytes) (l : BlobLook α) (result : Except BlobError α) : Prop :=
  l.run.Answers bs result

namespace Answers

theorem ok (a : α) : Answers bs (pure a) (.ok a) :=
  .done _

theorem error (err : BlobError) : Answers bs (throw err : BlobLook α) (.error err) :=
  .done _

theorem bind {l : BlobLook α} {next : α → BlobLook β} {result : Except BlobError α}
    {further : α → Except BlobError β} (h : Answers bs l result)
    (hnext : ∀ a, result = .ok a → Answers bs (next a) (further a)) :
    Answers bs (l >>= next) (result >>= further) := by
  refine Look.Answers.bind h ?_
  cases result with
  | error err => exact .done _
  | ok a => exact hnext a rfl

theorem ask {start count : Nat} {next : Bytes → BlobLook α} {result : Except BlobError α}
    (h : start + count ≤ bs.length) (hnext : Answers bs (next (bs.slice start count)) result) :
    Answers bs (bytesAt start count >>= next) result :=
  Look.Answers.bind (a := Except.ok (bs.slice start count)) (.ask h (.done _)) hnext

theorem unlessFault {c : Prop} [Decidable c] {err : BlobError} {next : Unit → BlobLook α}
    {further : Unit → Except BlobError α} (h : Answers bs (next ()) (further ())) :
    Answers bs (if c then throw err >>= next else next ())
      (if c then .error err >>= further else further ()) := by
  split
  · exact .error err
  · exact h

end Answers

end BlobLook

namespace Header

open BlobLook

def look (length : Nat) : BlobLook Header :=
  if length < headerSize then throw (.length headerSize length)
  else do
    if (← bytesAt 0 4) ≠ magic then throw .badMagic
    else return ⟨(← bytesAt 4 2).toNat, (← bytesAt 12 4).toNat, ← bytesAt 16 checksumSize⟩

theorem look_answers (bs : Bytes) : (look bs.length).Answers bs (read bs) := by
  unfold look read
  split
  · exact .error _
  · rename_i hlength
    replace hlength : 32 ≤ bs.length := Nat.not_lt.1 hlength
    refine .ask (by omega) ?_
    change Answers bs (if bs.take 4 ≠ magic then _ else _) _
    split
    · exact .error _
    · exact .ask (by omega) (.ask (by omega) (.ask hlength (.ok _)))

def lookPayload (h : Header) (length : Nat) : BlobLook Bytes :=
  if length < headerSize + h.length then throw (.length (headerSize + h.length) length)
  else bytesAt headerSize h.length

theorem lookPayload_answers (h : Header) (bs : Bytes) :
    (h.lookPayload bs.length).Answers bs (h.payload bs) := by
  unfold lookPayload payload
  split
  · exact .error _
  · rename_i hlength
    exact .ask (Nat.not_lt.1 hlength) (.done _)

def scanPayload (h : Header) : BlobLook Payload := .mk do
  match ← Scan.payload (headerSize + h.length) headerSize with
  | some (p, _) => return .ok p
  | none => return .error .payload

theorem scanPayload_answers {h : Header} {bs payload : Bytes} (hp : h.payload bs = .ok payload) :
    h.scanPayload.Answers bs (Blob.readPayload payload) := by
  obtain ⟨hlength, rfl⟩ := Blob.payload_of_payload hp
  obtain ⟨found, hfound, hread⟩ := Scan.payload_answers (.of_slice hlength)
  refine Look.Answers.bind hfound ?_
  rw [Blob.readPayload, ← hread]
  cases found <;> exact .done _

end Header

namespace Blob

/-- What `decode` does, told no more of the bytes than how many there are. -/
def decodeLook (length : Nat) : BlobLook (List Rule) := do
  let header ← Header.look length
  if header.version ≠ formatVersion then throw (.version header.version)
  let payload ← header.lookPayload length
  if checksum payload ≠ header.checksum then throw .checksum
  let p ← header.scanPayload
  .mk (return p.loaded)

def sourceDigestLook (length : Nat) : BlobLook (Option Bytes) := do
  let header ← Header.look length
  let _ ← header.lookPayload length
  return (← header.scanPayload).digest

theorem decodeLook_answers (bs : Bytes) : (decodeLook bs.length).Answers bs (decode bs) := by
  unfold decodeLook decode
  refine .bind (Header.look_answers bs) fun header _ => .unlessFault ?_
  refine .bind (header.lookPayload_answers bs) fun payload hpayload => .unlessFault ?_
  exact .bind (Header.scanPayload_answers hpayload) fun p _ => .done _

theorem sourceDigestLook_answers (bs : Bytes) :
    (sourceDigestLook bs.length).Answers bs (sourceDigest bs) := by
  unfold sourceDigestLook sourceDigest
  refine .bind (Header.look_answers bs) fun header _ => ?_
  refine .bind (header.lookPayload_answers bs) fun payload hpayload => ?_
  exact .bind (Header.scanPayload_answers hpayload) fun p _ => .ok _

end Blob

end AnswerGrading
