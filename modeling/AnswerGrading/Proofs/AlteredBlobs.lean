import AnswerGrading.Proofs.BlobRoundTrip

/-!
Blobs that were altered after they were written. A blob is known by what its header says and by the
payload that the header announces: as long as the checksum is kept, other rules can only come from
another payload with that checksum.
-/

namespace AnswerGrading

theorem Bytes.getElem?_slice (bs : Bytes) (start count i : Nat) :
    (bs.slice start count)[i]? = if i < count then bs[start + i]? else none := by
  rw [Bytes.slice, List.getElem?_take]
  simp

/-- No byte before `start` differs, none from `stop` on, and none was added or taken away. -/
structure AlteredBetween (start stop : Nat) (bs cs : Bytes) : Prop where
  length : cs.length = bs.length
  same : ∀ i, i < start ∨ stop ≤ i → cs[i]? = bs[i]?

namespace AlteredBetween

variable {start stop : Nat} {bs cs : Bytes}

theorem slice (h : AlteredBetween start stop bs cs) {first count : Nat}
    (ho : first + count ≤ start ∨ stop ≤ first) : cs.slice first count = bs.slice first count := by
  refine List.ext_getElem? fun i => ?_
  rw [Bytes.getElem?_slice, Bytes.getElem?_slice]
  split
  · exact h.same _ (by omega)
  · rfl

theorem take (h : AlteredBetween start stop bs cs) {count : Nat} (hc : count ≤ start) :
    cs.take count = bs.take count := by
  have hslice : cs.slice 0 count = bs.slice 0 count := h.slice (.inl (by omega))
  exact hslice

theorem eq_of_slice (h : AlteredBetween start stop bs cs)
    (hs : cs.slice start (stop - start) = bs.slice start (stop - start)) : cs = bs := by
  refine List.ext_getElem? fun i => ?_
  by_cases hi : i < start ∨ stop ≤ i
  · exact h.same i hi
  · have hget := congrArg (·[i - start]?) hs
    simp only [Bytes.getElem?_slice] at hget
    rw [if_pos (by omega), if_pos (by omega), Nat.add_sub_cancel' (by omega)] at hget
    exact hget

theorem set {i : Nat} (hs : start ≤ i) (hi : i < stop) (b : UInt8) :
    AlteredBetween start stop bs (bs.set i b) where
  length := List.length_set
  same j hj := List.getElem?_set_ne (by omega)

end AlteredBetween

namespace Blob

def lengthField (bs : Bytes) : Nat :=
  (bs.slice 12 4).toNat

def checksumField (bs : Bytes) : Bytes :=
  bs.slice 16 checksumSize

/-- The bytes that a blob's own length field marks as its payload. -/
def announced (bs : Bytes) : Bytes :=
  bs.slice headerSize (lengthField bs)

theorem header_read {bs : Bytes} (hl : headerSize ≤ bs.length) (hm : bs.take 4 = Header.magic) :
    Header.read bs = .ok ⟨(bs.slice 4 2).toNat, lengthField bs, checksumField bs⟩ := by
  rw [Header.read, if_neg (Nat.not_lt.2 hl), if_neg (not_not_intro hm)]
  rfl

theorem header_payload {bs : Bytes} (h : headerSize + lengthField bs ≤ bs.length) (v : Nat)
    (c : Bytes) : Header.payload ⟨v, lengthField bs, c⟩ bs = .ok (announced bs) :=
  if_neg (Nat.not_lt.2 h)

structure Framed (bs : Bytes) : Prop where
  header : headerSize ≤ bs.length
  magic : bs.take 4 = Header.magic
  version : (bs.slice 4 2).toNat = formatVersion
  payload : headerSize + lengthField bs ≤ bs.length

theorem decode_of_framed {bs : Bytes} (h : Framed bs) :
    decode bs =
      if checksum (announced bs) ≠ checksumField bs then .error .checksum
      else match Payload.read? (announced bs) with
        | none => .error .payload
        | some p => p.loaded := by
  have hread := header_read h.header h.magic
  have hpayload := header_payload h.payload
  rw [h.version] at hread
  simp only [decode, hread, hpayload, bind, Except.bind, ne_eq, not_true_eq_false, if_false]
  by_cases hc : checksum (announced bs) = checksumField bs
  · simp only [hc, readPayload, not_true_eq_false, if_false]
    cases Payload.read? (announced bs) <;> rfl
  · simp only [hc, not_false_eq_true, if_true]

theorem header_of_read {bs : Bytes} {h : Header} (hr : Header.read bs = .ok h) :
    headerSize ≤ bs.length ∧ bs.take 4 = Header.magic ∧
      h = ⟨(bs.slice 4 2).toNat, lengthField bs, checksumField bs⟩ := by
  unfold Header.read at hr
  split at hr
  · cases hr
  rename_i hlength
  split at hr
  · cases hr
  rename_i hmagic
  cases hr
  exact ⟨Nat.not_lt.1 hlength, not_not.1 hmagic, rfl⟩

theorem payload_of_payload {bs payload : Bytes} {h : Header} (hp : h.payload bs = .ok payload) :
    headerSize + h.length ≤ bs.length ∧ payload = bs.slice headerSize h.length := by
  unfold Header.payload at hp
  split at hp
  · cases hp
  rename_i hlength
  cases hp
  exact ⟨Nat.not_lt.1 hlength, rfl⟩

theorem framed_of_decode {bs : Bytes} {rules : List Rule} (h : decode bs = .ok rules) :
    Framed bs := by
  unfold decode at h
  cases hread : Header.read bs with
  | error e =>
      rw [hread] at h
      cases h
  | ok header =>
      obtain ⟨hlength, hmagic, rfl⟩ := header_of_read hread
      simp only [hread, bind, Except.bind] at h
      split at h
      · cases h
      rename_i hversion
      split at h
      · cases h
      rename_i hpayload
      exact ⟨hlength, hmagic, not_not.1 hversion, (payload_of_payload hpayload).1⟩

theorem decode_eq_ok_iff {bs : Bytes} {rules : List Rule} :
    decode bs = .ok rules ↔
      Framed bs ∧ checksum (announced bs) = checksumField bs ∧
        ∃ p, Payload.read? (announced bs) = some p ∧ p.loaded = .ok rules := by
  constructor
  · intro h
    have hframed := framed_of_decode h
    rw [decode_of_framed hframed] at h
    split at h
    · cases h
    rename_i hsum
    split at h
    · cases h
    rename_i p hp
    exact ⟨hframed, not_not.1 hsum, p, hp, h⟩
  · rintro ⟨hframed, hsum, p, hp, hloaded⟩
    rw [decode_of_framed hframed, if_neg (not_not_intro hsum), hp]
    exact hloaded

theorem eq_or_collision {bs cs : Bytes} {rules other : List Rule} (hb : decode bs = .ok rules)
    (hc : decode cs = .ok other) (hsum : checksumField cs = checksumField bs) :
    other = rules ∨
      announced cs ≠ announced bs ∧ checksum (announced cs) = checksum (announced bs) := by
  obtain ⟨-, hsumb, p, hp, hloaded⟩ := decode_eq_ok_iff.1 hb
  obtain ⟨-, hsumc, q, hq, hloaded'⟩ := decode_eq_ok_iff.1 hc
  by_cases hsame : announced cs = announced bs
  · rw [hsame, hp] at hq
    cases hq
    rw [hloaded] at hloaded'
    exact .inl (Except.ok.inj hloaded').symm
  · exact .inr ⟨hsame, by rw [hsumc, hsumb, hsum]⟩

theorem decode_eq_of_alteredBetween {bs cs : Bytes} (h : AlteredBetween 6 12 bs cs) :
    decode cs = decode bs := by
  have hread : Header.read cs = Header.read bs := by
    rw [Header.read, Header.read, h.length, h.take (by decide), h.slice (.inl (by decide)),
      h.slice (.inr (by decide)), h.slice (.inr (by decide))]
  have hpayload (header : Header) : header.payload cs = header.payload bs := by
    rw [Header.payload, Header.payload, h.length, h.slice (.inr (by decide))]
  simp only [decode, hread, hpayload]

theorem decode_of_checksum_altered {bs cs : Bytes} {rules : List Rule} (hb : decode bs = .ok rules)
    (h : AlteredBetween 16 32 bs cs) (hne : cs ≠ bs) : decode cs = .error .checksum := by
  obtain ⟨hframed, hsum, -⟩ := decode_eq_ok_iff.1 hb
  have hlength : lengthField cs = lengthField bs := by
    rw [lengthField, lengthField, h.slice (.inl (by decide))]
  have hannounced : announced cs = announced bs := by
    rw [announced, announced, hlength, h.slice (.inr (by decide))]
  have hframed' : Framed cs := by
    refine ⟨?_, ?_, ?_, ?_⟩
    · rw [h.length]
      exact hframed.header
    · rw [h.take (by decide)]
      exact hframed.magic
    · rw [h.slice (.inl (by decide))]
      exact hframed.version
    · rw [h.length, hlength]
      exact hframed.payload
  have hfield : checksumField cs ≠ checksumField bs := fun he => hne (h.eq_of_slice he)
  rw [decode_of_framed hframed', if_pos]
  rw [hannounced, hsum]
  exact hfield.symm

theorem announced_encode? {rules : List Rule} {source : Option String} {bs : Bytes}
    (h : encode? rules source = some bs) : announced bs = (payloadOf rules source).write := by
  obtain ⟨-, hsize, rfl⟩ := eq_of_encode? h
  generalize (payloadOf rules source).write = payload at *
  have hsum : (Header.forPayload payload).checksum.length = checksumSize :=
    length_checksum payload
  have hread := Header.read_write (by decide : 1 < 65536) hsize hsum payload
  have hlength : payload.length = lengthField ((Header.forPayload payload).write ++ payload) :=
    congrArg Header.length (header_of_read hread).2.2
  rw [announced, ← hlength]
  exact (payload_of_payload (Header.payload_write hsum rfl)).2.symm

/-- Whatever is done to a blob, as long as its checksum is kept it is read as the rules that were
written, or two payloads have one checksum. Bytes that do not count may change, and those of the
checksum may not. -/
theorem decode_altered {rules : List Rule} {source : Option String} {bs : Bytes}
    (h : encode? rules source = some bs) (hf : ∀ r ∈ rules, r.fraction.isFinite = true) :
    decode bs = .ok rules ∧ announced bs = (payloadOf rules source).write ∧
    (∀ cs other, cs.slice 16 16 = bs.slice 16 16 → decode cs = .ok other →
      other = rules ∨
        announced cs ≠ announced bs ∧
          (Blake3.hash (announced cs)).take 16 = (Blake3.hash (announced bs)).take 16) ∧
    (∀ cs, AlteredBetween 6 12 bs cs → decode cs = .ok rules) ∧
    (∀ cs, AlteredBetween 16 32 bs cs → cs ≠ bs → decode cs = .error .checksum) := by
  have hb := decode_encode?_of_finite h hf
  refine ⟨hb, announced_encode? h, ?_, ?_, ?_⟩
  · intro cs other hsum hc
    exact eq_or_collision hb hc hsum
  · intro cs ha
    rw [decode_eq_of_alteredBetween ha, hb]
  · intro cs ha hne
    exact decode_of_checksum_altered hb ha hne

theorem decode_altered_halfRule :
    ∃ bs cs ds : Bytes, encode? [halfRule] (some "source") = some bs ∧
      (∀ r ∈ [halfRule], r.fraction.isFinite = true) ∧
      (AlteredBetween 6 12 bs cs ∧ cs.slice 16 16 = bs.slice 16 16 ∧ decode cs = .ok [halfRule] ∧
        (∀ other, decode cs = .ok other → other = [halfRule] ∨
          announced cs ≠ announced bs ∧
            (Blake3.hash (announced cs)).take 16 = (Blake3.hash (announced bs)).take 16)) ∧
      AlteredBetween 16 32 bs ds ∧ ds ≠ bs ∧ decode ds = .error .checksum := by
  have hsize : (payloadOf [halfRule] (some "source")).write.length < UInt32.size := by
    simp only [payloadOf, Payload.write, Codec.writeOption, Option.map_some,
      List.length_append, List.length_cons, id_eq, Blake3.length_hash]
    decide
  have h := encode?_eq_some (by decide) hsize
  have hf : ∀ r ∈ [halfRule], r.fraction.isFinite = true := by decide
  generalize (Header.forPayload _).write ++ _ = bs at h
  obtain ⟨hb, -, hkept, hignored, hbroken⟩ := decode_altered h hf
  have hcs : AlteredBetween 6 12 bs (List.set bs 7 9) := .set (by decide) (by decide) 9
  have hslice : Bytes.slice (List.set bs 7 9) 16 16 = bs.slice 16 16 := hcs.slice (.inr (by decide))
  have hlength : 20 < bs.length := (framed_of_decode hb).header.trans_lt' (by decide)
  have hds : AlteredBetween 16 32 bs (List.set bs 20 (bs[20] + 1)) :=
    .set (by decide) (by decide) _
  have hne : List.set bs 20 (bs[20] + 1) ≠ bs := by
    intro he
    have hget := congrArg (·[20]?) he
    simp [hlength] at hget
  exact ⟨bs, _, _, h, hf, ⟨hcs, hslice, hignored _ hcs, fun other => hkept _ other hslice⟩, hds,
    hne, hbroken _ hds hne⟩

end Blob

end AnswerGrading
