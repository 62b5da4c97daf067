import AnswerGrading.Blob
import AnswerGrading.Proofs.FloatBits

/-!
Reading a blob gives back the rules that were written, and the digest of their source. Each value
reads back from its own bytes whatever follows them; the payload and the blob are put together from
that. Bodies are not written: a rule that is loaded has the one that its specification reads as.
-/

namespace AnswerGrading

namespace Codec

theorem readText_writeText {s : String} (h : (writeText s).length < UInt64.size) (rest : Bytes) :
    readText (writeText s ++ rest) = some (s, rest) := by
  have hl : s.toUTF8.data.toList.length < UInt64.size := by
    simp only [writeText, List.length_append] at h
    omega
  have hs : String.fromUTF8? ⟨s.toUTF8.data.toList.toArray⟩ = some s := dif_pos s.isValidUTF8
  rw [writeText, readText, List.append_assoc, readNumber_writeNumber hl (.inl rfl)]
  simp only [Option.bind_eq_bind, Option.bind_some, Bytes.split?_append rfl, hs]
  rfl

theorem readFloat_writeFloat (x : Float) (rest : Bytes) :
    readFloat (writeFloat x ++ rest) = some (x, rest) := by
  have hx : x.toBits.toNat < Bytes.capacity 8 := x.toBits.toNat_lt
  have hbits : Float.ofBits (UInt64.ofNat x.toBits.toNat) = x := by
    rw [UInt64.ofNat_toNat, FloatBits.ofBits_toBits]
  rw [writeFloat, readFloat, readWord_ofNat hx]
  simp only [Option.bind_eq_bind, Option.bind_some, hbits]
  rfl

theorem length_write_le_of_mem {α : Type} {write : α → Bytes} {as : List α} {a : α} (h : a ∈ as) :
    (write a).length ≤ (writeList write as).length := by
  have hs : (write a).Sublist (as.flatMap write) := by
    rw [List.flatMap_def]
    exact List.sublist_flatten_of_mem (List.mem_map_of_mem h)
  rw [writeList, List.length_append]
  exact Nat.le_add_left_of_le hs.length_le

end Codec

namespace Payload

open Codec

theorem readFormat_writeFormat (f : FeedbackFormat) (rest : Bytes) :
    readFormat (writeFormat f ++ rest) = some (f, rest) := by
  cases f <;> rfl

theorem readRule_writeRule {r : StoredRule} (h : (writeRule r).length < UInt64.size) (rest : Bytes) :
    readRule (writeRule r ++ rest) = some (r, rest) := by
  simp only [writeRule, List.length_append] at h
  have hid := readText_writeText (s := r.id) (by omega)
  have hspec := readText_writeText (s := r.spec) (by omega)
  have hfeedback := readText_writeText (s := r.ownFeedback) (by omega)
  simp only [readRule, writeRule, List.append_assoc, hid, hspec, readFloat_writeFloat, hfeedback,
    readFormat_writeFormat, Option.bind_eq_bind, Option.bind_some]
  rfl

theorem read?_write {p : Payload} (hd : ∀ d ∈ p.digest, d.length = 32)
    (hc : p.count < UInt32.size) (hn : p.rules.length < UInt64.size)
    (hl : p.write.length < UInt64.size) (rest : Bytes) : read? (p.write ++ rest) = some p := by
  have hc' : p.count < UInt64.size := Nat.lt_trans hc (by decide)
  have hread : ∀ d ∈ p.digest, ∀ rest, Bytes.split? 32 (id d ++ rest) = some (d, rest) :=
    fun d hm => Bytes.split?_append (hd d hm)
  have hdigest := readOption_writeOption hread
  have hrules := readList_writeList hn fun r hr => readRule_writeRule (r := r) <| by
    have hle : (writeRule r).length ≤ (writeList writeRule p.rules).length :=
      length_write_le_of_mem hr
    simp only [write, List.length_append] at hl
    omega
  simp only [read?, write, List.append_assoc, hdigest, readNumber_writeNumber hc' (.inr hc),
    hrules, Option.bind_eq_bind, Option.bind_some]
  rfl

def loaded (p : Payload) : Except BlobError (List Rule) :=
  match p.check with
  | .ok () => .ok (p.rules.map Rule.ofStored)
  | .error f => .error (.fault f)

end Payload

namespace Header

theorem length_write {h : Header} (hs : h.checksum.length = checksumSize) :
    h.write.length = headerSize := by
  simp [write, hs, magic, headerSize, checksumSize]

theorem read_write {h : Header} (hv : h.version < Bytes.capacity 2)
    (hl : h.length < Bytes.capacity 4) (hs : h.checksum.length = checksumSize) (rest : Bytes) :
    read (h.write ++ rest) = .ok h := by
  have hlen : ¬(h.write ++ rest).length < headerSize := by
    rw [List.length_append, length_write hs]
    omega
  have hmagic : (h.write ++ rest).take 4 = magic := by simp [write, magic]
  have hversion : Bytes.slice (h.write ++ rest) 4 2 = Bytes.ofNat 2 h.version := by
    rw [write]
    simp only [List.append_assoc]
    exact Bytes.slice_append rfl (Bytes.length_ofNat 2 _) _
  have hlength : Bytes.slice (h.write ++ rest) 12 4 = Bytes.ofNat 4 h.length := by
    rw [write, List.append_assoc, List.append_assoc]
    exact Bytes.slice_append (by simp [magic]) (Bytes.length_ofNat 4 _) _
  have hchecksum : Bytes.slice (h.write ++ rest) 16 checksumSize = h.checksum := by
    rw [write, List.append_assoc]
    exact Bytes.slice_append (by simp [magic]) hs _
  rw [read, if_neg hlen, if_neg (not_not_intro hmagic), hversion, hlength, hchecksum,
    Bytes.toNat_ofNat hv, Bytes.toNat_ofNat hl]

theorem payload_write {h : Header} {payload : Bytes} (hs : h.checksum.length = checksumSize)
    (hl : h.length = payload.length) : h.payload (h.write ++ payload) = .ok payload := by
  have hw := length_write hs
  rw [Header.payload, if_neg]
  · have := Bytes.slice_append hw hl.symm []
    rw [List.append_nil] at this
    rw [this]
  · rw [List.length_append, hw, hl]
    exact Nat.lt_irrefl _

end Header

namespace Blob

theorem length_checksum (payload : Bytes) : (checksum payload).length = checksumSize := by
  simp [checksum, Blake3.length_hash, checksumSize]

theorem encode?_eq_some {rules : List Rule} {source : Option String}
    (hr : rules.length < UInt32.size) (hp : (payloadOf rules source).write.length < UInt32.size) :
    encode? rules source = some ((Header.forPayload (payloadOf rules source).write).write ++
      (payloadOf rules source).write) :=
  if_pos ⟨hr, hp⟩

theorem eq_of_encode? {rules : List Rule} {source : Option String} {bs : Bytes}
    (h : encode? rules source = some bs) :
    rules.length < UInt32.size ∧ (payloadOf rules source).write.length < UInt32.size ∧
      bs = (Header.forPayload (payloadOf rules source).write).write ++
        (payloadOf rules source).write := by
  unfold encode? at h
  dsimp only at h
  split at h
  · rename_i hsize
    cases h
    exact ⟨hsize.1, hsize.2, rfl⟩
  · cases h

theorem rules_payloadOf (rules : List Rule) (source : Option String) :
    (payloadOf rules source).rules.map Rule.ofStored = rules := by
  simp [payloadOf, Function.comp_def, Rule.ofStored_toStoredRule]

theorem read?_payloadOf {rules : List Rule} {source : Option String}
    (hr : rules.length < UInt32.size) (hp : (payloadOf rules source).write.length < UInt32.size) :
    Payload.read? (payloadOf rules source).write = some (payloadOf rules source) := by
  have hd : ∀ d ∈ (payloadOf rules source).digest, d.length = 32 := by
    intro d hd
    obtain ⟨s, -, rfl⟩ := Option.map_eq_some_iff.1 hd
    exact Blake3.length_hash _
  have hn : (payloadOf rules source).rules.length < UInt64.size := by
    rw [payloadOf, List.length_map]
    exact Nat.lt_trans hr (by decide)
  have h := Payload.read?_write hd hr hn (Nat.lt_trans hp (by decide)) []
  rwa [List.append_nil] at h

theorem read_encode? {rules : List Rule} {source : Option String} {bs : Bytes}
    (h : encode? rules source = some bs) :
    ∃ header payload, Header.read bs = .ok header ∧ header.version = formatVersion ∧
      header.payload bs = .ok payload ∧ checksum payload = header.checksum ∧
      readPayload payload = .ok (payloadOf rules source) := by
  obtain ⟨hrules, hsize, rfl⟩ := eq_of_encode? h
  have hs := length_checksum (payloadOf rules source).write
  refine ⟨.forPayload (payloadOf rules source).write, (payloadOf rules source).write, ?_, rfl,
    ?_, rfl, ?_⟩
  · exact Header.read_write (by decide : 1 < 65536) hsize hs _
  · exact Header.payload_write hs rfl
  · rw [readPayload, read?_payloadOf hrules hsize]

theorem sourceDigest_encode? {rules : List Rule} {source : Option String} {bs : Bytes}
    (h : encode? rules source = some bs) :
    sourceDigest bs = .ok (payloadOf rules source).digest := by
  obtain ⟨header, payload, hh, -, hp, -, hr⟩ := read_encode? h
  simp only [sourceDigest, hh, hp, hr, bind, Except.bind]
  rfl

theorem decode_eq_loaded {rules : List Rule} {source : Option String} {bs : Bytes}
    (h : encode? rules source = some bs) : decode bs = (payloadOf rules source).loaded := by
  obtain ⟨header, payload, hh, hv, hp, hs, hr⟩ := read_encode? h
  simp only [decode, hh, hv, hp, hs, hr, bind, Except.bind, ne_eq, not_true_eq_false, if_false]
  rfl

theorem check_payloadOf_of_finite {rules : List Rule} {source : Option String}
    (h : ∀ r ∈ rules, r.fraction.isFinite = true) : (payloadOf rules source).check = .ok () := by
  have hf : (payloadOf rules source).rules.find? (fun r => !r.fraction.isFinite) = none := by
    simpa [payloadOf] using h
  rw [Payload.check, hf, if_neg (by simp [payloadOf])]

theorem check_payloadOf_of_not_finite {before after : List Rule} {r : Rule}
    {source : Option String} (hb : ∀ x ∈ before, x.fraction.isFinite = true)
    (hr : r.fraction.isFinite = false) :
    (payloadOf (before ++ r :: after) source).check = .error (.fraction r.id) := by
  have hf : (payloadOf (before ++ r :: after) source).rules.find?
      (fun r => !r.fraction.isFinite) = some r.toStoredRule := by
    have hn : (before.map Rule.toStoredRule).find? (fun r => !r.fraction.isFinite) = none := by
      simpa using hb
    rw [payloadOf, List.map_append, List.find?_append, hn, Option.none_or, List.map_cons,
      List.find?_cons_of_pos (by simp [hr])]
  rw [Payload.check, hf, if_neg (by simp [payloadOf])]

theorem decode_encode?_of_finite {rules : List Rule} {source : Option String} {bs : Bytes}
    (h : encode? rules source = some bs) (hf : ∀ r ∈ rules, r.fraction.isFinite = true) :
    decode bs = .ok rules := by
  rw [decode_eq_loaded h, Payload.loaded, check_payloadOf_of_finite hf, rules_payloadOf]

theorem decode_encode?_of_not_finite {before after : List Rule} {r : Rule}
    {source : Option String} {bs : Bytes} (h : encode? (before ++ r :: after) source = some bs)
    (hb : ∀ x ∈ before, x.fraction.isFinite = true) (hr : r.fraction.isFinite = false) :
    decode bs = .error (.fault (.fraction r.id)) := by
  rw [decode_eq_loaded h, Payload.loaded, check_payloadOf_of_not_finite hb hr]

/-- Rules with finite fractions come back as they were written, each with the body that its
specification reads as; otherwise the first rule whose fraction is not finite is named. The digest is
that of the source text in either case. -/
theorem decode_encode? {rules : List Rule} {source : Option String} {bs : Bytes}
    (h : encode? rules source = some bs) :
    ((∀ r ∈ rules, r.fraction.isFinite = true) →
      decode bs = .ok rules ∧ ∀ r ∈ rules, r.body = Specification.parse r.spec) ∧
      (∀ before r after, rules = before ++ r :: after →
        (∀ x ∈ before, x.fraction.isFinite = true) →
        (r.fraction.isNaN = true ∨ r.fraction.isInf = true) →
        decode bs = .error (.fault (.fraction r.id))) ∧
      sourceDigest bs = .ok (source.map fun s => Blake3.hash s.toUTF8.data.toList) := by
  refine ⟨?_, ?_, sourceDigest_encode? h⟩
  · intro hf
    exact ⟨decode_encode?_of_finite h hf, fun r _ => r.body_eq⟩
  · rintro before r after rfl hb hn
    have hr : r.fraction.isFinite = false := by
      rw [FloatBits.isFinite_eq]
      rcases hn with hn | hn
      · rw [hn]
        rfl
      · rw [hn, Bool.or_true]
        rfl
    exact decode_encode?_of_not_finite h hb hr

def halfRule : Rule :=
  .ofStored {
    id := "1"
    spec := "[[a b]] [[c]]/O/\nseparator=,"
    fraction := -0.5
    ownFeedback := "nearly"
    format := .markdown }

def endlessRule : Rule :=
  .ofStored { id := "2", spec := "[[oops", fraction := 1.0 / 0.0 }

theorem decode_encode?_halfRule :
    (∃ bs, encode? [halfRule] (some "source") = some bs ∧ decode bs = .ok [halfRule] ∧
      halfRule.body = Specification.parse halfRule.spec ∧
      halfRule.body.fragments = ["a b", "c"] ∧ halfRule.body.separator = "," ∧
      sourceDigest bs = .ok (some (Blake3.hash "source".toUTF8.data.toList))) ∧
    ∃ bs, encode? [halfRule, endlessRule] none = some bs ∧
      decode bs = .error (.fault (.fraction "2")) := by
  constructor
  · have hsize : (payloadOf [halfRule] (some "source")).write.length < UInt32.size := by
      simp only [payloadOf, Payload.write, Codec.writeOption, Option.map_some,
        List.length_append, List.length_cons, id_eq, Blake3.length_hash]
      decide
    have h := encode?_eq_some (by decide) hsize
    obtain ⟨hok, -, hdigest⟩ := decode_encode? h
    obtain ⟨hdecode, hbody⟩ := hok (by decide)
    exact ⟨_, h, hdecode, hbody _ (List.mem_singleton_self _), by decide +kernel,
      by decide +kernel, hdigest⟩
  · have h : encode? [halfRule, endlessRule] none = _ := encode?_eq_some (by decide) (by decide)
    have hn := (decode_encode? h).2.1 [halfRule] endlessRule [] rfl (by decide)
      (.inr (by decide))
    exact ⟨_, h, hn⟩

end Blob

end AnswerGrading
