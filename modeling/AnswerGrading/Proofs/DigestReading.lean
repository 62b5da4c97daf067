import AnswerGrading.Proofs.AlteredBlobs

namespace AnswerGrading

def BlobError.isRejection : BlobError → Bool
  | .badMagic | .version _ | .checksum | .length _ _ | .payload => true
  | .fault _ | .missingFile => false

theorem Payload.isRejection_of_loaded {p : Payload} {err : BlobError} (h : p.loaded = .error err) :
    err.isRejection = false := by
  unfold loaded at h
  split at h
  · cases h
  · cases h
    rfl

namespace Blob

variable {bs : Bytes} {p : Payload} {err : BlobError}

def versionField (bs : Bytes) : Nat :=
  (bs.slice 4 2).toNat

/-- The header tells the version there is and the checksum that the payload has. -/
structure Sealed (bs : Bytes) : Prop where
  version : versionField bs = formatVersion
  checksum : checksum (announced bs) = checksumField bs

def Rejected (bs : Bytes) : Prop :=
  ∃ err, decode bs = .error err ∧ err.isRejection = true

/-- The payload, opened without a look at version and checksum. -/
def openPayload (bs : Bytes) : Except BlobError Payload := do
  let header ← Header.read bs
  readPayload (← header.payload bs)

theorem sourceDigest_eq (bs : Bytes) : sourceDigest bs = (openPayload bs).map Payload.digest := by
  simp only [sourceDigest, openPayload, bind, Except.bind]
  cases hread : Header.read bs with
  | error err => rfl
  | ok header =>
      cases hpayload : header.payload bs with
      | error err => simp only [hpayload, Except.map]
      | ok payload =>
          simp only [hpayload]
          cases readPayload payload <;> rfl

theorem sourceDigest_eq_ok_iff {digest : Option Bytes} :
    sourceDigest bs = .ok digest ↔ ∃ p, openPayload bs = .ok p ∧ p.digest = digest := by
  rw [sourceDigest_eq]
  cases openPayload bs <;> simp [Except.map]

theorem sourceDigest_eq_error_iff : sourceDigest bs = .error err ↔ openPayload bs = .error err := by
  rw [sourceDigest_eq]
  cases openPayload bs <;> simp [Except.map]

theorem isRejection_of_read (h : Header.read bs = .error err) : err.isRejection = true := by
  unfold Header.read at h
  split at h
  · cases h
    rfl
  · split at h
    · cases h
      rfl
    · cases h

theorem isRejection_of_payload {header : Header} (h : header.payload bs = .error err) :
    err.isRejection = true := by
  unfold Header.payload at h
  split at h
  · cases h
    rfl
  · cases h

theorem read?_of_readPayload {payload : Bytes} (h : readPayload payload = .ok p) :
    Payload.read? payload = some p := by
  unfold readPayload at h
  split at h
  · rename_i hp
    cases h
    exact hp
  · cases h

theorem isRejection_of_readPayload {payload : Bytes} (h : readPayload payload = .error err) :
    err.isRejection = true := by
  unfold readPayload at h
  split at h
  · cases h
  · cases h
    rfl

theorem openPayload_of_read {header : Header} (hread : Header.read bs = .ok header) :
    openPayload bs = (header.payload bs).bind readPayload := by
  simp only [openPayload, hread, bind, Except.bind]

theorem openPayload_eq_ok (h : openPayload bs = .ok p) :
    headerSize ≤ bs.length ∧ bs.take 4 = Header.magic ∧ headerSize + lengthField bs ≤ bs.length ∧
      Payload.read? (announced bs) = some p := by
  cases hread : Header.read bs with
  | error err =>
      rw [openPayload, hread] at h
      cases h
  | ok header =>
      rw [openPayload_of_read hread] at h
      obtain ⟨hlength, hmagic, rfl⟩ := header_of_read hread
      cases hpayload : Header.payload _ bs with
      | error err =>
          rw [hpayload] at h
          cases h
      | ok payload =>
          rw [hpayload] at h
          obtain ⟨hle, rfl⟩ := payload_of_payload hpayload
          exact ⟨hlength, hmagic, hle, read?_of_readPayload h⟩

theorem decode_of_read {header : Header} (hread : Header.read bs = .ok header) :
    decode bs =
      if versionField bs ≠ formatVersion then .error (.version (versionField bs))
      else (header.payload bs).bind fun payload =>
        if checksum payload ≠ checksumField bs then .error .checksum
        else (readPayload payload).bind Payload.loaded := by
  simp only [decode, hread, bind, Except.bind]
  obtain ⟨-, -, rfl⟩ := header_of_read hread
  by_cases hversion : versionField bs = formatVersion
  · rw [if_neg (not_not_intro hversion)]
    refine (if_neg (not_not_intro hversion)).trans ?_
    cases Header.payload _ bs with
    | error err => rfl
    | ok payload =>
        refine if_congr Iff.rfl rfl ?_
        cases readPayload payload <;> rfl
  · rw [if_pos hversion]
    exact if_pos hversion

theorem decode_of_openPayload (h : openPayload bs = .ok p) :
    decode bs =
      if versionField bs ≠ formatVersion then .error (.version (versionField bs))
      else if checksum (announced bs) ≠ checksumField bs then .error .checksum
      else p.loaded := by
  obtain ⟨hlength, hmagic, hle, hp⟩ := openPayload_eq_ok h
  have hpayload : readPayload (announced bs) = .ok p := by rw [readPayload, hp]
  rw [decode_of_read (header_read hlength hmagic), header_payload hle]
  simp only [Except.bind, hpayload]

/-- Where no payload can be opened, loading rejects the blob as well. If it stops at another fault
than the one that opening the payload tells, then at the version or at the checksum. -/
theorem decode_of_openPayload_error (h : openPayload bs = .error err) :
    ∃ err', decode bs = .error err' ∧ err'.isRejection = true ∧ (Sealed bs → err' = err) := by
  cases hread : Header.read bs with
  | error fault =>
      rw [openPayload, hread] at h
      cases h
      exact ⟨err, by rw [decode, hread]; rfl, isRejection_of_read hread, fun _ => rfl⟩
  | ok header =>
      rw [openPayload_of_read hread] at h
      rw [decode_of_read hread]
      obtain ⟨-, -, rfl⟩ := header_of_read hread
      -- loading looks at the version before the length and at the checksum before the payload, and
      -- either hides the fault that comes after it
      by_cases hversion : versionField bs = formatVersion
      · rw [if_neg (not_not_intro hversion)]
        cases hpayload : Header.payload _ bs with
        | error fault =>
            rw [hpayload] at h
            cases h
            exact ⟨err, rfl, isRejection_of_payload hpayload, fun _ => rfl⟩
        | ok payload =>
            rw [hpayload] at h
            replace h : readPayload payload = .error err := h
            obtain ⟨-, rfl⟩ := payload_of_payload hpayload
            by_cases hsum : checksum (announced bs) = checksumField bs
            · refine ⟨err, ?_, isRejection_of_readPayload h, fun _ => rfl⟩
              refine (if_neg (not_not_intro hsum)).trans ?_
              rw [h]
              rfl
            · exact ⟨.checksum, if_pos hsum, rfl, fun hs => absurd hs.checksum hsum⟩
      · exact ⟨_, if_pos hversion, rfl, fun hs => absurd hs.version hversion⟩

theorem decode_of_sealed (h : openPayload bs = .ok p) (hs : Sealed bs) : decode bs = p.loaded := by
  rw [decode_of_openPayload h, if_neg (not_not_intro hs.version), if_neg (not_not_intro hs.checksum)]

theorem decode_of_version_ne (h : openPayload bs = .ok p) (hv : versionField bs ≠ formatVersion) :
    decode bs = .error (.version (versionField bs)) := by
  rw [decode_of_openPayload h, if_pos hv]

theorem decode_of_checksum_ne (h : openPayload bs = .ok p) (hv : versionField bs = formatVersion)
    (hc : checksum (announced bs) ≠ checksumField bs) : decode bs = .error .checksum := by
  rw [decode_of_openPayload h, if_neg (not_not_intro hv), if_pos hc]

theorem not_rejected_of_sealed (h : openPayload bs = .ok p) (hs : Sealed bs) : ¬Rejected bs := by
  rintro ⟨err, hdecode, hrejection⟩
  rw [decode_of_sealed h hs] at hdecode
  rw [Payload.isRejection_of_loaded hdecode] at hrejection
  cases hrejection

theorem rejected_iff (h : openPayload bs = .ok p) : Rejected bs ↔ ¬Sealed bs := by
  constructor
  · exact fun hr hs => not_rejected_of_sealed h hs hr
  · intro hs
    by_cases hv : versionField bs = formatVersion
    · have hc : checksum (announced bs) ≠ checksumField bs := fun hc => hs ⟨hv, hc⟩
      exact ⟨_, decode_of_checksum_ne h hv hc, rfl⟩
    · exact ⟨_, decode_of_version_ne h hv, rfl⟩

theorem rejected_of_openPayload_error (h : openPayload bs = .error err) : Rejected bs := by
  obtain ⟨err', hdecode, hrejection, -⟩ := decode_of_openPayload_error h
  exact ⟨err', hdecode, hrejection⟩

theorem decode_eq_error_iff_of_sealed (hs : Sealed bs) (hrejection : err.isRejection = true) :
    decode bs = .error err ↔ openPayload bs = .error err := by
  cases hopen : openPayload bs with
  | ok p =>
      refine iff_of_false (fun hdecode => ?_) nofun
      exact not_rejected_of_sealed hopen hs ⟨err, hdecode, hrejection⟩
  | error fault =>
      obtain ⟨err', hdecode, -, hsame⟩ := decode_of_openPayload_error hopen
      rw [hdecode, hsame hs]
      simp only [Except.error.injEq]

/-- A digest that was read stands in a blob that loading rejects exactly when version or checksum are
wrong, and loading then says which. With both right the two readers reject the same blobs for the same
reasons, and whatever is not rejected is read the same way by both. -/
theorem sourceDigest_beside_decode (bs : Bytes) :
    (∀ digest, sourceDigest bs = .ok digest →
      (Rejected bs ↔ ¬Sealed bs) ∧
      (versionField bs ≠ formatVersion → decode bs = .error (.version (versionField bs))) ∧
      (versionField bs = formatVersion → checksum (announced bs) ≠ checksumField bs →
        decode bs = .error .checksum)) ∧
    (Sealed bs → ∀ err, err.isRejection = true →
      (decode bs = .error err ↔ sourceDigest bs = .error err)) ∧
    (¬Rejected bs →
      ∃ p, openPayload bs = .ok p ∧ sourceDigest bs = .ok p.digest ∧ decode bs = p.loaded) := by
  refine ⟨?_, ?_, ?_⟩
  · intro digest hdigest
    obtain ⟨p, hopen, -⟩ := sourceDigest_eq_ok_iff.1 hdigest
    exact ⟨rejected_iff hopen, decode_of_version_ne hopen, decode_of_checksum_ne hopen⟩
  · intro hs err hrejection
    rw [sourceDigest_eq_error_iff]
    exact decode_eq_error_iff_of_sealed hs hrejection
  · intro hr
    cases hopen : openPayload bs with
    | error err => exact absurd (rejected_of_openPayload_error hopen) hr
    | ok p =>
        have hs : Sealed bs := not_not.1 fun hs => hr ((rejected_iff hopen).2 hs)
        exact ⟨p, rfl, sourceDigest_eq_ok_iff.2 ⟨p, hopen, rfl⟩, decode_of_sealed hopen hs⟩

/-- What is written for no rules and the source `x`. -/
def bareBlob : Bytes :=
  [0x52, 0x58, 0x4d, 0x51, 0x01, 0x00, 0x01, 0x00, 0x00, 0x00, 0x00, 0x00, 0x23, 0x00, 0x00, 0x00,
   0x9e, 0x30, 0xd4, 0xd7, 0x0b, 0xed, 0x40, 0x93, 0x4d, 0xc0, 0x91, 0x32, 0x0f, 0xd8, 0x2b, 0x23,
   0x01, 0x3a, 0xe7, 0xd8, 0x05, 0xf6, 0x78, 0x9a, 0x64, 0x02, 0xac, 0xb7, 0x0a, 0xd4, 0x09, 0x6a,
   0x85, 0xa5, 0x6b, 0xf6, 0x80, 0x4e, 0xaf, 0x25, 0xc0, 0x49, 0x3a, 0xc6, 0x97, 0x54, 0x8d, 0x30,
   0xb5, 0x00, 0x00]

theorem encode?_bareBlob : encode? [] (some "x") = some bareBlob := by
  decide +kernel

def damagedBlob : Bytes :=
  List.set bareBlob 40 0

def laterBlob : Bytes :=
  List.set bareBlob 4 2

theorem openPayload_bareBlob :
    openPayload bareBlob = .ok ⟨some (bareBlob.slice 33 32), 0, []⟩ :=
  rfl

theorem openPayload_damagedBlob :
    openPayload damagedBlob = .ok ⟨some (damagedBlob.slice 33 32), 0, []⟩ :=
  rfl

theorem openPayload_laterBlob :
    openPayload laterBlob = .ok ⟨some (laterBlob.slice 33 32), 0, []⟩ :=
  rfl

theorem sealed_bareBlob : Sealed bareBlob where
  version := by decide
  checksum := by decide +kernel

theorem checksum_damagedBlob : checksum (announced damagedBlob) ≠ checksumField damagedBlob := by
  decide +kernel

theorem sourceDigest_beside_decode_bareBlob :
    (Sealed bareBlob ∧ sourceDigest bareBlob = .ok (some (bareBlob.slice 33 32)) ∧
      ¬Rejected bareBlob ∧ ∃ p, openPayload bareBlob = .ok p ∧ decode bareBlob = p.loaded) ∧
    (Sealed bareBlob ∧ BlobError.isRejection .checksum = true ∧
      (decode bareBlob = .error .checksum ↔ sourceDigest bareBlob = .error .checksum)) ∧
    sourceDigest laterBlob = .ok (some (laterBlob.slice 33 32)) ∧ Rejected laterBlob := by
  obtain ⟨hok, hsame, hloaded⟩ := sourceDigest_beside_decode bareBlob
  have hdigest := sourceDigest_eq_ok_iff.2 ⟨_, openPayload_bareBlob, rfl⟩
  have hr : ¬Rejected bareBlob := fun hr => (hok _ hdigest).1.1 hr sealed_bareBlob
  obtain ⟨p, hopen, -, hdecode⟩ := hloaded hr
  have hlater := sourceDigest_eq_ok_iff.2 ⟨_, openPayload_laterBlob, rfl⟩
  have hversion : versionField laterBlob ≠ formatVersion := by decide
  have hrejected : Rejected laterBlob :=
    ⟨_, ((sourceDigest_beside_decode laterBlob).1 _ hlater).2.1 hversion, rfl⟩
  exact ⟨⟨sealed_bareBlob, hdigest, hr, p, hopen, hdecode⟩,
    ⟨sealed_bareBlob, rfl, hsame sealed_bareBlob _ rfl⟩, hlater, hrejected⟩

/-- A digest that was never written is read from the damaged blob, and the blob of a later format
has a digest as well. -/
theorem sourceDigest_of_rejected :
    encode? [] (some "x") = some bareBlob ∧
    (sourceDigest damagedBlob = .ok (some (damagedBlob.slice 33 32)) ∧
      sourceDigest damagedBlob ≠ sourceDigest bareBlob ∧ decode damagedBlob = .error .checksum) ∧
    sourceDigest laterBlob = .ok (some (laterBlob.slice 33 32)) ∧
      decode laterBlob = .error (.version 2) := by
  have hversion : versionField damagedBlob = formatVersion := by decide
  have hdamaged := sourceDigest_eq_ok_iff.2 ⟨_, openPayload_damagedBlob, rfl⟩
  have hbare := sourceDigest_eq_ok_iff.2 ⟨_, openPayload_bareBlob, rfl⟩
  have hlater : decode laterBlob = .error (.version (versionField laterBlob)) :=
    decode_of_version_ne openPayload_laterBlob (by decide)
  refine ⟨encode?_bareBlob, ⟨hdamaged, ?_, ?_⟩, ?_, hlater⟩
  · rw [hdamaged, hbare]
    decide
  · exact decode_of_checksum_ne openPayload_damagedBlob hversion checksum_damagedBlob
  · exact sourceDigest_eq_ok_iff.2 ⟨_, openPayload_laterBlob, rfl⟩

end Blob

end AnswerGrading
