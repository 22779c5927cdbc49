import DriveChain.Proofs.HeaderDocument
import DriveChain.Proofs.PayloadBytes

/-!
# Payloads are read back from their documents

Each of the ten payloads has fields of its own, and is written in just the
members that these fields look for. What is made of them is judged on a network
later, when the header has been read: then keys become accounts of that network,
and counts are compared with the lists they announce.

That is also all that can be said of a payload that was read from a document of
someone else: its accounts are on the network it was read for, and its lists are
so short that their counts fit. It is enough for writing it again.
-/

namespace DriveChain

open Json (Decoder Fields nestedName)

theorem checkCount_ok {field : String} {announced : UInt16} {found : Nat} {u : Unit} :
    checkCount field announced found = .ok u ↔ found = announced.toNat := by
  unfold checkCount
  split
  · next heq => simp [heq]
  · next hne => simp [Ne.symm hne]

theorem checkCount_of_eq {field : String} {announced : UInt16} {found : Nat}
    (h : found = announced.toNat) : checkCount field announced found = .ok () :=
  checkCount_ok.2 h

/-! ## Entries -/

namespace SizedFile

theorem written (file : SizedFile) :
    fields.Written [("fileHash", .ofOctets file.hash), ("fileSize", .ofWord64 file.size)]
      file := by
  have hhash := Fields.written_required "fileHash" (Decoder.octets_reads file.hash)
  have hsize := Fields.written_required "fileSize" (Decoder.pair_reads file.size)
  exact (hhash.map SizedFile.mk).seq hsize

theorem record_reads (label : String) (file : SizedFile) :
    (fields.record label).Reads file.json file :=
  file.written.record_reads (by decide) (List.Perm.refl _) label

end SizedFile

theorem fileFields_reads (label : String) (hash : Hash) :
    (fileFields.record label).Reads (fileJson hash) hash := by
  have hhash := Fields.written_required "fileHash" (Decoder.octets_reads hash)
  exact (hhash.map id).record_reads (by decide) (List.Perm.refl _) label

namespace Upload

/-- The document that an upload is written as. -/
def document (u : Upload) : UploadDocument :=
  ⟨u.participant.key.hex, u.uploaded⟩

theorem json_reads (u : Upload) : UploadDocument.decoder.Reads u.json u.document := by
  have hparticipant := Fields.written_required "participant"
    (Decoder.text_reads u.participant.key.hex)
  have huploaded := Fields.written_required "uploaded" (Decoder.pair_reads u.uploaded)
  exact ((hparticipant.map UploadDocument.mk).seq huploaded).record_reads (by decide)
    (List.Perm.refl _) "struct UploadInfoDto"

theorem ofDocument_document (network : Network) (u : Upload) :
    ofDocument network u.document = .ok (u.on network) := by
  unfold ofDocument document
  rw [Account.ofField_hex]
  rfl

theorem on_of_ofDocument {network : Network} {d : UploadDocument} {u : Upload}
    (h : ofDocument network d = .ok u) : u.on network = u := by
  unfold ofDocument at h
  simp only [except_bind_ok, except_pure_ok] at h
  obtain ⟨participant, hparticipant, rfl⟩ := h
  exact on_eq_self (Account.on_of_ofField hparticipant)

end Upload

namespace VerificationFailure

/-- The document that a failure is written as. -/
def document (f : VerificationFailure) : FailureDocument :=
  ⟨f.replicator.key.hex, f.blocks⟩

theorem json_reads (f : VerificationFailure) :
    FailureDocument.decoder.Reads f.json f.document := by
  have hreplicator := Fields.written_required "replicator"
    (Decoder.text_reads f.replicator.key.hex)
  have hblocks := Fields.written_entries "blockHashes" Decoder.octets_reads f.blocks
  exact ((hreplicator.map FailureDocument.mk).seq hblocks).record_reads (by decide)
    (List.Perm.refl _) "struct FailureVerificationDto"

theorem ofDocument_document (network : Network) (f : VerificationFailure) :
    ofDocument network f.document = .ok (f.on network) := by
  unfold ofDocument document
  rw [Account.ofField_hex]
  rfl

theorem on_of_ofDocument {network : Network} {d : FailureDocument} {f : VerificationFailure}
    (h : ofDocument network d = .ok f) : f.on network = f := by
  unfold ofDocument at h
  simp only [except_bind_ok, except_pure_ok] at h
  obtain ⟨replicator, hreplicator, rfl⟩ := h
  exact on_eq_self (Account.on_of_ofField hreplicator)

end VerificationFailure

namespace Cosignature

/-- The document that a cosignature is written as. -/
def document (c : Cosignature) : CosignatureDocument :=
  ⟨c.signer.key.hex, c.signature.hex⟩

theorem json_reads (c : Cosignature) :
    CosignatureDocument.decoder.Reads c.json c.document := by
  have hsigner := Fields.written_required "signer" (Decoder.text_reads c.signer.key.hex)
  have hsignature := Fields.written_required "signature" (Decoder.text_reads c.signature.hex)
  exact ((hsigner.map CosignatureDocument.mk).seq hsignature).record_reads (by decide)
    (List.Perm.swap _ _ []) "struct CosignatureDto"

theorem ofDocument_document (network : Network) (c : Cosignature) :
    ofDocument network c.document = .ok (c.on network) := by
  unfold ofDocument document
  rw [Account.ofField_hex, Octets.ofField_hex]
  rfl

theorem on_of_ofDocument {network : Network} {d : CosignatureDocument} {c : Cosignature}
    (h : ofDocument network d = .ok c) : c.on network = c := by
  unfold ofDocument at h
  simp only [except_bind_ok, except_pure_ok] at h
  obtain ⟨signer, hsigner, signature, _, rfl⟩ := h
  exact on_eq_self (Account.on_of_ofField hsigner)

end Cosignature

/-! ## Payloads -/

namespace Payload

/-- The lengths of the lists that are counted on the wire. -/
def counts : Payload → List Nat
  | .driveFileSystem change => [change.added.length, change.removed.length]
  | .filesDeposit _ files => [files.length]
  | .driveFilesReward uploads => [uploads.length]
  | .startFileDownload _ files => [files.length]
  | .endFileDownload _ _ files => [files.length]
  | _ => []

/-- Whether a length fits the two bytes of a count. -/
def CountsFit (p : Payload) : Prop :=
  ∀ n ∈ p.counts, n < UInt16.size

/-- Fields that find a payload in the members, and make it again on any network. -/
def WrittenIn (p : Payload) (own : Fields PayloadDocument) (ms : List (String × Json)) : Prop :=
  ∃ document, own.Written ms document ∧ ∀ network, document network = .ok (p.on network)

/-- Fields that make nothing but payloads of a shape, with accounts of the network
and with lists whose counts fit. -/
def MadeBy (shape : Shape) (own : Fields PayloadDocument) : Prop :=
  own.Makes fun document => ∀ network p, document network = .ok p →
    p.shape = shape ∧ p.on network = p ∧ p.CountsFit

theorem names_nodup {shape : Shape} {own : Fields PayloadDocument}
    (h : fields? shape = some own) :
    (nestedName :: (HeaderDocument.fields.names ++ own.names)).Nodup := by
  cases shape with
  | aggregate => cases h
  | _ =>
      cases h
      decide

theorem countsFit_of_nil {p : Payload} (h : p.counts = []) : p.CountsFit := by
  intro n hn
  rw [h] at hn
  cases hn

theorem countsFit_of_count {p : Payload} {n : Nat} {count : UInt16} (h : p.counts = [n])
    (hcount : n = count.toNat) : p.CountsFit := by
  intro m hm
  rw [h] at hm
  rw [List.mem_singleton.1 hm, hcount]
  exact count.toNat_lt

theorem prepareDrive_written {terms : DriveTerms} {ms : List (String × Json)}
    (h : (prepareDrive terms).members = .ok ms) :
    (prepareDrive terms).WrittenIn prepareDriveFields ms := by
  cases h
  have howner := Fields.written_required "owner" (Decoder.text_reads terms.owner.key.hex)
  have hduration := Fields.written_required "duration" (Decoder.pair_reads terms.duration)
  have hperiod := Fields.written_required "billingPeriod"
    (Decoder.pair_reads terms.billingPeriod)
  have hprice := Fields.written_required "billingPrice" (Decoder.pair_reads terms.billingPrice)
  have hsize := Fields.written_required "driveSize" (Decoder.pair_reads terms.driveSize)
  have hreplicas := Fields.written_required "replicas" (Decoder.word16_reads terms.replicas)
  have hreplicators := Fields.written_required "minReplicators"
    (Decoder.word16_reads terms.minReplicators)
  have hpercent := Fields.written_required "percentApprovers"
    (Decoder.word8_reads terms.percentApprovers)
  refine ⟨_, (((((((howner.map _).seq hduration).seq hperiod).seq hprice).seq hsize).seq
    hreplicas).seq hreplicators).seq hpercent, fun network => ?_⟩
  rw [Account.ofField_hex]
  rfl

theorem prepareDrive_made : MadeBy .prepareDrive prepareDriveFields := by
  refine .seq (.seq (.seq (.seq (.seq (.seq (.seq (.map (Fields.makes_of_forall ?_))))))))
  intro owner duration period price size replicas replicators percent network p hp
  simp only [except_bind_ok, except_pure_ok] at hp
  obtain ⟨account, haccount, rfl⟩ := hp
  refine ⟨rfl, ?_, countsFit_of_nil rfl⟩
  rw [on, Account.on_of_ofField haccount]

/-- The three payloads of a drive alone go by what is made of the drive. -/
theorem drive_written {make : Account → Payload} {drive : Account}
    (hmake : ∀ network, (make drive).on network = make (drive.on network)) :
    (make drive).WrittenIn (driveFields make) [("driveKey", .ofOctets drive.key)] := by
  have hdrive := Fields.written_required "driveKey" (Decoder.text_reads drive.key.hex)
  refine ⟨_, hdrive.map _, fun network => ?_⟩
  rw [Account.ofField_hex, hmake]
  rfl

theorem drive_made {make : Account → Payload} {shape : Shape}
    (hmake : ∀ (network : Network) (a : Account), (make a).on network = make (a.on network))
    (hshape : ∀ a, (make a).shape = shape) (hcounts : ∀ a, (make a).counts = []) :
    MadeBy shape (driveFields make) := by
  refine .map (Fields.makes_of_forall ?_)
  intro drive network p hp
  simp only [except_bind_ok, except_pure_ok] at hp
  obtain ⟨account, haccount, rfl⟩ := hp
  refine ⟨hshape account, ?_, countsFit_of_nil (hcounts account)⟩
  rw [hmake, Account.on_of_ofField haccount]

theorem driveFileSystem_written {change : FileSystemChange} {ms : List (String × Json)}
    (h : (driveFileSystem change).members = .ok ms) :
    (driveFileSystem change).WrittenIn driveFileSystemFields ms := by
  simp only [members, except_bind_ok, wireCount_ok] at h
  obtain ⟨adds, hadds, removes, hremoves, h⟩ := h
  cases h
  have hdrive := Fields.written_required "driveKey" (Decoder.text_reads change.drive.key.hex)
  have hroot := Fields.written_required "rootHash" (Decoder.text_reads change.newRoot.hex)
  have hxor := Fields.written_required "xorRootHash" (Decoder.text_reads change.xorRoot.hex)
  have haddCount := Fields.written_required "addActionsCount" (Decoder.word16_reads adds)
  have hremoveCount := Fields.written_required "removeActionsCount"
    (Decoder.word16_reads removes)
  have hadded := Fields.written_entries "addActions"
    (SizedFile.record_reads "struct AddAction") change.added
  have hremoved := Fields.written_entries "removeActions"
    (fileFields_reads "struct RemoveAction") change.removed
  have hold : change.xorRoot.xor change.newRoot = change.oldRoot :=
    Octets.xor_xor_right change.newRoot change.oldRoot
  refine ⟨_, ((((((hdrive.map _).seq hroot).seq hxor).seq haddCount).seq hremoveCount).seq
    hadded).seq hremoved, fun network => ?_⟩
  rw [checkCount_of_eq hadds, checkCount_of_eq hremoves, Octets.ofField_hex,
    Octets.ofField_hex, Account.ofField_hex, on, ← hold]
  rfl

theorem driveFileSystem_made : MadeBy .driveFileSystem driveFileSystemFields := by
  refine .seq (.seq (.seq (.seq (.seq (.seq (.map (Fields.makes_of_forall ?_)))))))
  intro drive newRoot xorRoot adds removes added removed network p hp
  simp only [except_bind_ok, except_pure_ok, checkCount_ok] at hp
  obtain ⟨_, hadds, _, hremoves, newRoot', _, xorRoot', _, account, haccount, rfl⟩ := hp
  refine ⟨rfl, ?_, fun n hn => ?_⟩
  · rw [on, Account.on_of_ofField haccount]
  · simp only [counts, List.mem_cons, List.not_mem_nil, or_false] at hn
    rcases hn with rfl | rfl
    · rw [hadds]
      exact adds.toNat_lt
    · rw [hremoves]
      exact removes.toNat_lt

theorem filesDeposit_written {drive : Account} {files : List Hash} {ms : List (String × Json)}
    (h : (filesDeposit drive files).members = .ok ms) :
    (filesDeposit drive files).WrittenIn filesDepositFields ms := by
  simp only [members, except_bind_ok, wireCount_ok] at h
  obtain ⟨count, hcount, h⟩ := h
  cases h
  have hdrive := Fields.written_required "driveKey" (Decoder.text_reads drive.key.hex)
  have hfilesCount := Fields.written_required "filesCount" (Decoder.word16_reads count)
  have hfiles := Fields.written_entries "files" (fileFields_reads "struct File") files
  refine ⟨_, ((hdrive.map _).seq hfilesCount).seq hfiles, fun network => ?_⟩
  rw [checkCount_of_eq hcount, Account.ofField_hex]
  rfl

theorem filesDeposit_made : MadeBy .filesDeposit filesDepositFields := by
  refine .seq (.seq (.map (Fields.makes_of_forall ?_)))
  intro drive count files network p hp
  simp only [except_bind_ok, except_pure_ok, checkCount_ok] at hp
  obtain ⟨_, hcount, account, haccount, rfl⟩ := hp
  refine ⟨rfl, ?_, countsFit_of_count rfl hcount⟩
  rw [on, Account.on_of_ofField haccount]

theorem driveFilesReward_written {uploads : List Upload} {ms : List (String × Json)}
    (h : (driveFilesReward uploads).members = .ok ms) :
    (driveFilesReward uploads).WrittenIn driveFilesRewardFields ms := by
  simp only [members, except_bind_ok, wireCount_ok] at h
  obtain ⟨count, hcount, h⟩ := h
  cases h
  have huploadsCount := Fields.written_required "uploadInfosCount" (Decoder.word16_reads count)
  have huploads := Fields.written_list "uploadInfos" Upload.json_reads uploads
  refine ⟨_, (huploadsCount.map _).seq huploads, fun network => ?_⟩
  have hall : (uploads.map Upload.document).mapM (Upload.ofDocument network) =
      .ok (uploads.map (Upload.on network)) :=
    mapM_map_ok fun u _ => u.ofDocument_document network
  rw [List.length_map, checkCount_of_eq hcount, hall]
  rfl

theorem driveFilesReward_made : MadeBy .driveFilesReward driveFilesRewardFields := by
  refine .seq (.map (Fields.makes_of_forall ?_))
  intro count uploads network p hp
  simp only [except_bind_ok, except_pure_ok, checkCount_ok] at hp
  obtain ⟨_, hcount, uploads', huploads, rfl⟩ := hp
  have hon : ∀ u ∈ uploads', u.on network = u := by
    intro u hu
    obtain ⟨d, _, hd⟩ := mem_of_mapM_ok huploads u hu
    exact Upload.on_of_ofDocument hd
  refine ⟨rfl, ?_, countsFit_of_count rfl ((length_of_mapM_ok huploads).trans hcount)⟩
  rw [on, List.map_congr_left hon, List.map_id']

theorem endDriveVerification_written {failures : List VerificationFailure}
    {ms : List (String × Json)} (h : (endDriveVerification failures).members = .ok ms) :
    (endDriveVerification failures).WrittenIn endDriveVerificationFields ms := by
  cases h
  have hfailures := Fields.written_list "verificationFailures"
    VerificationFailure.json_reads failures
  refine ⟨_, hfailures.map _, fun network => ?_⟩
  have hall : (failures.map VerificationFailure.document).mapM
      (VerificationFailure.ofDocument network) =
        .ok (failures.map (VerificationFailure.on network)) :=
    mapM_map_ok fun f _ => f.ofDocument_document network
  rw [hall]
  rfl

theorem endDriveVerification_made :
    MadeBy .endDriveVerification endDriveVerificationFields := by
  refine .map (Fields.makes_of_forall ?_)
  intro failures network p hp
  simp only [except_bind_ok, except_pure_ok] at hp
  obtain ⟨failures', hfailures, rfl⟩ := hp
  have hon : ∀ f ∈ failures', f.on network = f := by
    intro f hf
    obtain ⟨d, _, hd⟩ := mem_of_mapM_ok hfailures f hf
    exact VerificationFailure.on_of_ofDocument hd
  refine ⟨rfl, ?_, countsFit_of_nil rfl⟩
  rw [on, List.map_congr_left hon, List.map_id']

theorem startFileDownload_written {drive : Account} {files : List SizedFile}
    {ms : List (String × Json)} (h : (startFileDownload drive files).members = .ok ms) :
    (startFileDownload drive files).WrittenIn startFileDownloadFields ms := by
  simp only [members, except_bind_ok, wireCount_ok] at h
  obtain ⟨count, hcount, h⟩ := h
  cases h
  have hdrive := Fields.written_required "driveKey" (Decoder.text_reads drive.key.hex)
  have hfileCount := Fields.written_required "fileCount" (Decoder.word16_reads count)
  have hfiles := Fields.written_entries "files"
    (SizedFile.record_reads "struct DownloadFile") files
  refine ⟨_, ((hdrive.map _).seq hfileCount).seq hfiles, fun network => ?_⟩
  rw [checkCount_of_eq hcount, Account.ofField_hex]
  rfl

theorem startFileDownload_made : MadeBy .startFileDownload startFileDownloadFields := by
  refine .seq (.seq (.map (Fields.makes_of_forall ?_)))
  intro drive count files network p hp
  simp only [except_bind_ok, except_pure_ok, checkCount_ok] at hp
  obtain ⟨_, hcount, account, haccount, rfl⟩ := hp
  refine ⟨rfl, ?_, countsFit_of_count rfl hcount⟩
  rw [on, Account.on_of_ofField haccount]

theorem endFileDownload_written {recipient : Account} {token : Hash} {files : List SizedFile}
    {ms : List (String × Json)} (h : (endFileDownload recipient token files).members = .ok ms) :
    (endFileDownload recipient token files).WrittenIn endFileDownloadFields ms := by
  simp only [members, except_bind_ok, wireCount_ok] at h
  obtain ⟨count, hcount, h⟩ := h
  cases h
  have hrecipient := Fields.written_required "fileRecipient"
    (Decoder.text_reads recipient.key.hex)
  have htoken := Fields.written_required "operationToken" (Decoder.text_reads token.hex)
  have hfileCount := Fields.written_required "fileCount" (Decoder.word16_reads count)
  have hfiles := Fields.written_entries "files"
    (SizedFile.record_reads "struct DownloadFile") files
  refine ⟨_, (((hrecipient.map _).seq htoken).seq hfileCount).seq hfiles, fun network => ?_⟩
  rw [checkCount_of_eq hcount, Account.ofField_hex, Octets.ofField_hex]
  rfl

theorem endFileDownload_made : MadeBy .endFileDownload endFileDownloadFields := by
  refine .seq (.seq (.seq (.map (Fields.makes_of_forall ?_))))
  intro recipient token count files network p hp
  simp only [except_bind_ok, except_pure_ok, checkCount_ok] at hp
  obtain ⟨_, hcount, account, haccount, token', _, rfl⟩ := hp
  refine ⟨rfl, ?_, countsFit_of_count rfl hcount⟩
  rw [on, Account.on_of_ofField haccount]

/-! ## All payloads -/

theorem members_written {p : Payload} {ms : List (String × Json)} (h : p.members = .ok ms) :
    ∃ own, fields? p.shape = some own ∧ p.WrittenIn own ms := by
  cases p with
  | prepareDrive terms => exact ⟨_, rfl, prepareDrive_written h⟩
  | joinToDrive drive | endDrive drive | startDriveVerification drive =>
      cases h
      exact ⟨_, rfl, drive_written fun _ => rfl⟩
  | driveFileSystem change => exact ⟨_, rfl, driveFileSystem_written h⟩
  | filesDeposit drive files => exact ⟨_, rfl, filesDeposit_written h⟩
  | driveFilesReward uploads => exact ⟨_, rfl, driveFilesReward_written h⟩
  | endDriveVerification failures => exact ⟨_, rfl, endDriveVerification_written h⟩
  | startFileDownload drive files => exact ⟨_, rfl, startFileDownload_written h⟩
  | endFileDownload recipient token files => exact ⟨_, rfl, endFileDownload_written h⟩

theorem fields_make {shape : Shape} {own : Fields PayloadDocument}
    (h : fields? shape = some own) : MadeBy shape own := by
  cases shape with
  | aggregate => cases h
  | prepareDrive => cases h; exact prepareDrive_made
  | joinToDrive | endDrive | startDriveVerification =>
      cases h
      exact drive_made (fun _ _ => rfl) (fun _ => rfl) fun _ => rfl
  | driveFileSystem => cases h; exact driveFileSystem_made
  | filesDeposit => cases h; exact filesDeposit_made
  | driveFilesReward => cases h; exact driveFilesReward_made
  | endDriveVerification => cases h; exact endDriveVerification_made
  | startFileDownload => cases h; exact startFileDownload_made
  | endFileDownload => cases h; exact endFileDownload_made

theorem wireCount_of_lt {field : String} {n : Nat} (h : n < UInt16.size) :
    wireCount field n = .ok (UInt16.ofNat n) :=
  wireCount_ok.2 (UInt16.toNat_ofNat_of_lt' h).symm

/-- Nothing but a count can keep a payload from being written as a document. -/
theorem members_of_countsFit {p : Payload} (h : p.CountsFit) : ∃ ms, p.members = .ok ms := by
  cases p with
  | driveFileSystem change =>
      have hadds := h change.added.length (by simp [counts])
      have hremoves := h change.removed.length (by simp [counts])
      rw [members, wireCount_of_lt hadds, wireCount_of_lt hremoves]
      exact ⟨_, rfl⟩
  | filesDeposit _ files | startFileDownload _ files | endFileDownload _ _ files =>
      have hfiles := h files.length (List.mem_singleton.2 rfl)
      rw [members, wireCount_of_lt hfiles]
      exact ⟨_, rfl⟩
  | driveFilesReward uploads =>
      have huploads := h uploads.length (List.mem_singleton.2 rfl)
      rw [members, wireCount_of_lt huploads]
      exact ⟨_, rfl⟩
  | _ => exact ⟨_, rfl⟩

end Payload

end DriveChain
