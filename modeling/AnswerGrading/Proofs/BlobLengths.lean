import AnswerGrading.Proofs.BlobLooks

namespace AnswerGrading

variable {α β : Type}

/-- What is found with more bytes: the same, unless there were too few. -/
def Lasts (result later : Except BlobError α) : Prop :=
  (∃ expected actual, result = .error (.length expected actual)) ∨ later = result

namespace Lasts

theorem refl (result : Except BlobError α) : Lasts result result :=
  .inr rfl

theorem bind {result later : Except BlobError α} {next further : α → Except BlobError β}
    (h : Lasts result later) (hnext : ∀ a, Lasts (next a) (further a)) :
    Lasts (result >>= next) (later >>= further) := by
  obtain ⟨expected, actual, rfl⟩ | rfl := h
  · exact .inl ⟨expected, actual, rfl⟩
  · cases later with
    | error err => exact .refl _
    | ok a => exact hnext a

theorem unlessFault {c : Prop} [Decidable c] {err : BlobError}
    {next further : Unit → Except BlobError α} (h : Lasts (next ()) (further ())) :
    Lasts (if c then .error err >>= next else next ())
      (if c then .error err >>= further else further ()) := by
  split
  · exact .refl _
  · exact h

theorem eq {result later : Except BlobError α} (h : Lasts result later)
    (hshort : ∀ expected actual, result ≠ .error (.length expected actual)) : later = result :=
  h.resolve_left fun ⟨expected, actual, hresult⟩ => hshort expected actual hresult

end Lasts

theorem Bytes.slice_append_left {bs : Bytes} {start count : Nat} (h : start + count ≤ bs.length)
    (more : Bytes) : Bytes.slice (bs ++ more) start count = bs.slice start count := by
  rw [Bytes.slice, Bytes.slice, List.drop_append_of_le_length (by omega),
    List.take_append_of_le_length (by rw [List.length_drop]; omega)]

namespace Header

variable {bs : Bytes}

theorem read_append (h : headerSize ≤ bs.length) (more : Bytes) :
    read (bs ++ more) = read bs := by
  have hsize : 32 ≤ bs.length := h
  have happend : headerSize ≤ (bs ++ more).length := by
    rw [List.length_append]
    exact h.trans (Nat.le_add_right _ _)
  rw [read, read, if_neg (Nat.not_lt.2 happend), if_neg (Nat.not_lt.2 h),
    List.take_append_of_le_length (by omega), Bytes.slice_append_left (by omega),
    Bytes.slice_append_left (by omega), Bytes.slice_append_left hsize]

theorem payload_append {header : Header} (h : headerSize + header.length ≤ bs.length)
    (more : Bytes) : header.payload (bs ++ more) = header.payload bs := by
  rw [payload, payload, if_neg (Nat.not_lt.2 h), Bytes.slice_append_left h, if_neg]
  rw [List.length_append]
  omega

theorem read_of_lt (h : bs.length < headerSize) :
    read bs = .error (.length headerSize bs.length) :=
  if_pos h

theorem payload_of_lt {header : Header} (h : bs.length < headerSize + header.length) :
    header.payload bs = .error (.length (headerSize + header.length) bs.length) :=
  if_pos h

theorem read_lasts (bs more : Bytes) : Lasts (read bs) (read (bs ++ more)) := by
  by_cases h : bs.length < headerSize
  · exact .inl ⟨_, _, read_of_lt h⟩
  · exact .inr (read_append (Nat.not_lt.1 h) more)

theorem payload_lasts (header : Header) (bs more : Bytes) :
    Lasts (header.payload bs) (header.payload (bs ++ more)) := by
  by_cases h : bs.length < headerSize + header.length
  · exact .inl ⟨_, _, payload_of_lt h⟩
  · exact .inr (payload_append (Nat.not_lt.1 h) more)

end Header

namespace Blob

theorem decode_lasts (bs more : Bytes) : Lasts (decode bs) (decode (bs ++ more)) := by
  unfold decode
  refine .bind (Header.read_lasts bs more) fun header => .unlessFault ?_
  exact .bind (header.payload_lasts bs more) fun payload => .refl _

theorem sourceDigest_lasts (bs more : Bytes) :
    Lasts (sourceDigest bs) (sourceDigest (bs ++ more)) := by
  unfold sourceDigest
  refine .bind (Header.read_lasts bs more) fun header => ?_
  exact .bind (header.payload_lasts bs more) fun payload => .refl _

variable {rules : List Rule} {source : Option String} {bs : Bytes} {n : Nat}

theorem length_encode? (h : encode? rules source = some bs) :
    ∃ header, Header.read bs = .ok header ∧ header.version = formatVersion ∧
      headerSize + header.length = bs.length := by
  obtain ⟨-, hsize, rfl⟩ := eq_of_encode? h
  have hsum := length_checksum (payloadOf rules source).write
  refine ⟨.forPayload (payloadOf rules source).write, ?_, rfl, ?_⟩
  · exact Header.read_write (by decide : 1 < 65536) hsize hsum _
  · rw [List.length_append, Header.length_write hsum]
    rfl

theorem decode_take (h : encode? rules source = some bs) (hn : n < bs.length) :
    decode (bs.take n) = .error (.length (if n < headerSize then headerSize else bs.length) n) := by
  have hlength : (bs.take n).length = n := List.length_take_of_le hn.le
  by_cases hheader : n < headerSize
  · have hread := Header.read_of_lt (hlength.trans_lt hheader)
    rw [decode, hread, hlength, if_pos hheader]
    rfl
  · obtain ⟨header, hread, hversion, htotal⟩ := length_encode? h
    have happend : Header.read (bs.take n ++ bs.drop n) = Header.read (bs.take n) :=
      Header.read_append (by omega) _
    rw [List.take_append_drop, hread] at happend
    have hpayload : header.payload (bs.take n) = .error (.length bs.length n) := by
      rw [Header.payload_of_lt (by omega), hlength, htotal]
    simp only [decode, ← happend, hversion, hpayload, bind, Except.bind, ne_eq, not_true_eq_false,
      if_false, if_neg hheader]

/-- The readers come to a result that no more bytes can change, or find too few. A written blob is
too short when any of it is missing, and says how many bytes it needs. Whatever the bytes are, the
readers look at no place behind the last one. -/
theorem decode_at_every_length (bs more : Bytes) :
    ((∀ expected actual, decode bs ≠ .error (.length expected actual)) →
      decode (bs ++ more) = decode bs) ∧
    ((∀ expected actual, sourceDigest bs ≠ .error (.length expected actual)) →
      sourceDigest (bs ++ more) = sourceDigest bs) ∧
    (∀ (rules : List Rule) (source : Option String) (n : Nat),
      encode? rules source = some bs → n < bs.length →
      decode (bs.take n) = .error (.length (if n < 32 then 32 else bs.length) n)) ∧
    ((decodeLook bs.length).run.Inside bs ∧ (decodeLook bs.length).run.run bs = decode bs) ∧
    (sourceDigestLook bs.length).run.Inside bs ∧
      (sourceDigestLook bs.length).run.run bs = sourceDigest bs := by
  have hdecode := decodeLook_answers bs
  have hdigest := sourceDigestLook_answers bs
  refine ⟨(decode_lasts bs more).eq, (sourceDigest_lasts bs more).eq, ?_,
    ⟨hdecode.inside, hdecode.run⟩, hdigest.inside, hdigest.run⟩
  intro rules source n h hn
  exact decode_take h hn

/-- Cut off in the header and one byte before its end, and with a byte after it. -/
theorem decode_at_every_length_bareBlob :
    encode? [] (some "x") = some bareBlob ∧
    (decode bareBlob = .ok [] ∧ decode (bareBlob ++ [7]) = .ok []) ∧
    (sourceDigest bareBlob = .ok (some (bareBlob.slice 33 32)) ∧
      sourceDigest (bareBlob ++ [7]) = .ok (some (bareBlob.slice 33 32))) ∧
    (10 < bareBlob.length ∧ decode (bareBlob.take 10) = .error (.length 32 10)) ∧
    66 < bareBlob.length ∧ decode (bareBlob.take 66) = .error (.length 67 66) := by
  obtain ⟨hdecode, hdigest, hcut, -⟩ := decode_at_every_length bareBlob [7]
  have hrules : decode bareBlob = .ok [] :=
    decode_encode?_of_finite encode?_bareBlob (List.forall_mem_nil _)
  have hsource : sourceDigest bareBlob = .ok (some (bareBlob.slice 33 32)) :=
    sourceDigest_eq_ok_iff.2 ⟨_, openPayload_bareBlob, rfl⟩
  refine ⟨encode?_bareBlob, ⟨hrules, ?_⟩, ⟨hsource, ?_⟩, ⟨by decide, ?_⟩, by decide, ?_⟩
  · rw [hdecode, hrules]
    intro expected actual h
    rw [hrules] at h
    cases h
  · rw [hdigest, hsource]
    intro expected actual h
    rw [hsource] at h
    cases h
  · exact hcut [] (some "x") 10 encode?_bareBlob (by decide)
  · exact hcut [] (some "x") 66 encode?_bareBlob (by decide)

end Blob

end AnswerGrading
