import AnswerGrading.Blob.Codec
import AnswerGrading.Bytes.Blake3
import AnswerGrading.Rule

/-!
Rule sets as bytes: a header of 32 bytes and a payload. The header names the format, gives the
payload's length and the start of its hash; the payload holds what authors wrote, and patterns are
made anew from it.
-/

namespace AnswerGrading

structure Payload where
  digest : Option Bytes
  count : Nat
  rules : List StoredRule

inductive PayloadFault where
  | count (announced held : Nat)
  | fraction (id : String)
  deriving DecidableEq, Repr

def PayloadFault.message : PayloadFault → String
  | .count announced held =>
      "payload announces " ++ toString announced ++ " rules but holds " ++ toString held
  | .fraction id => "rule '" ++ id ++ "' has a non-finite fraction"

inductive BlobError where
  | badMagic
  | version (found : Nat)
  | checksum
  | length (expected actual : Nat)
  | payload
  | fault (f : PayloadFault)
  | missingFile
  deriving DecidableEq, Repr

def formatVersion : Nat := 1

def engineVersion : Nat := 1

def headerSize : Nat := 32

def checksumSize : Nat := 16

def BlobError.message : BlobError → String
  | .badMagic => "not a regexmatch rule set: bad magic bytes"
  | .version found =>
      "rule set blob has format v" ++ toString found ++ ", this build reads v"
        ++ toString formatVersion
  | .checksum => "rule set blob is corrupt: checksum mismatch"
  | .length expected actual =>
      "rule set blob is truncated: expected " ++ toString expected ++ " bytes, found "
        ++ toString actual
  | .payload => "could not decode rule set payload"
  | .fault f => "inconsistent rule set payload: " ++ f.message
  | .missingFile => "could not read rule set"

namespace Payload

open Codec

def writeFormat : FeedbackFormat → Bytes
  | .moodle => writeNumber 0
  | .html => writeNumber 1
  | .plain => writeNumber 2
  | .markdown => writeNumber 3

def formatNumber? : Nat → Option FeedbackFormat
  | 0 => some .moodle
  | 1 => some .html
  | 2 => some .plain
  | 3 => some .markdown
  | _ => none

def readFormat : Read FeedbackFormat := fun bs => do
  let (n, rest) ← readNumber false bs
  return (← formatNumber? n, rest)

def writeRule (r : StoredRule) : Bytes :=
  writeText r.id ++ writeText r.spec ++ writeFloat r.fraction ++ writeText r.ownFeedback
    ++ writeFormat r.format

def readRule : Read StoredRule := fun bs => do
  let (id, bs) ← readText bs
  let (spec, bs) ← readText bs
  let (fraction, bs) ← readFloat bs
  let (ownFeedback, bs) ← readText bs
  let (format, rest) ← readFormat bs
  return (⟨id, spec, fraction, ownFeedback, format⟩, rest)

def write (p : Payload) : Bytes :=
  writeOption id p.digest ++ writeNumber p.count ++ writeList writeRule p.rules

/-- Bytes after the rules do not count. -/
def read? (bs : Bytes) : Option Payload := do
  let (digest, bs) ← readOption (Bytes.split? 32) bs
  let (count, bs) ← readNumber false bs
  let (rules, _) ← readList readRule bs
  return ⟨digest, count, rules⟩

def check (p : Payload) : Except PayloadFault Unit :=
  if p.count ≠ p.rules.length then .error (.count p.count p.rules.length)
  else match p.rules.find? fun r => !r.fraction.isFinite with
    | some r => .error (.fraction r.id)
    | none => .ok ()

end Payload

def checksum (payload : Bytes) : Bytes :=
  (Blake3.hash payload).take checksumSize

structure Header where
  version : Nat
  length : Nat
  checksum : Bytes
  deriving DecidableEq, Repr

namespace Header

/-- `RXMQ` -/
def magic : Bytes :=
  [0x52, 0x58, 0x4d, 0x51]

def forPayload (payload : Bytes) : Header :=
  ⟨formatVersion, payload.length, AnswerGrading.checksum payload⟩

def write (h : Header) : Bytes :=
  magic ++ Bytes.ofNat 2 h.version ++ Bytes.ofNat 2 engineVersion ++ Bytes.ofNat 4 0
    ++ Bytes.ofNat 4 h.length ++ h.checksum

def read (bs : Bytes) : Except BlobError Header :=
  if bs.length < headerSize then .error (.length headerSize bs.length)
  else if bs.take 4 ≠ magic then .error .badMagic
  else .ok ⟨(bs.slice 4 2).toNat, (bs.slice 12 4).toNat, bs.slice 16 checksumSize⟩

def payload (h : Header) (bs : Bytes) : Except BlobError Bytes :=
  if bs.length < headerSize + h.length then .error (.length (headerSize + h.length) bs.length)
  else .ok (bs.slice headerSize h.length)

end Header

namespace Blob

def payloadOf (rules : List Rule) (source : Option String) : Payload :=
  ⟨source.map fun s => Blake3.hash s.toUTF8.data.toList, rules.length,
    rules.map Rule.toStoredRule⟩

/-- Fails when the number of rules or of bytes does not fit into four bytes. -/
def encode? (rules : List Rule) (source : Option String) : Option Bytes :=
  let payload := (payloadOf rules source).write
  if rules.length < UInt32.size ∧ payload.length < UInt32.size then
    some ((Header.forPayload payload).write ++ payload)
  else none

def readPayload (payload : Bytes) : Except BlobError Payload :=
  match Payload.read? payload with
  | some p => .ok p
  | none => .error .payload

def decode (bs : Bytes) : Except BlobError (List Rule) := do
  let header ← Header.read bs
  if header.version ≠ formatVersion then .error (.version header.version)
  let payload ← header.payload bs
  if checksum payload ≠ header.checksum then .error .checksum
  let p ← readPayload payload
  match p.check with
  | .ok () => return p.rules.map Rule.ofStored
  | .error f => .error (.fault f)

/-- The digest of the source text, read without a look at version and checksum. -/
def sourceDigest (bs : Bytes) : Except BlobError (Option Bytes) := do
  let header ← Header.read bs
  let p ← readPayload (← header.payload bs)
  return p.digest

/-- Makes the header agree with the bytes after it. -/
def reseal (bs : Bytes) : Bytes :=
  let payload := bs.drop headerSize
  (bs.overwrite 12 (Bytes.ofNat 4 payload.length)).overwrite 16 (checksum payload)

end Blob

end AnswerGrading
