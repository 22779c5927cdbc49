import DriveChain.Proofs.RecasedRecords
import DriveChain.Proofs.TransactionDocument

/-!
# Documents of recased transactions

A document of a transaction has texts for keys, hashes and signatures in four parts: in the
header, in what is reported, in the payload, and in the cosignatures of an aggregate. Some
are read as octets with the shape of the document and others later, with the network at hand.
Either way they are read as the same octets whatever their case, so two documents that are
recased are read as one transaction or not at all.

The documents in an aggregate are kept as they are until their turn comes, so two aggregates
hold documents that are recased in their turn.
-/

namespace DriveChain

open Json (Decoder Fields Recased Schema)

section Fields

variable {n : Nat} {field text text' : String} {network : Network}

theorem Octets.ofField_agree (h : SameDigits text text') :
    Agree Eq (ofField n field text) (ofField n field text') := by
  unfold ofField
  rcases agree_iff.1 (@ofHex_agree n text text' h) with ⟨a, b, ha, hb, hab⟩ | ⟨e, e', he, he'⟩
  · simp only [ha, hb]
    exact .ok hab
  · simp only [he, he']
    exact .error _ _

theorem Account.ofField_agree (h : SameDigits text text') :
    Agree Eq (ofField field text network) (ofField field text' network) := by
  unfold ofField
  rcases agree_iff.1 (@Octets.ofField_agree 32 field text text' h) with
    ⟨a, b, ha, hb, rfl⟩ | ⟨e, e', he, he'⟩
  · simp only [ha, hb]
    exact .ok rfl
  · simp only [he, he']
    exact .error _ _

theorem Octets.ofOptionalField_agree {text text' : Option String}
    (h : Option.Rel SameDigits text text') :
    Agree Eq (ofOptionalField n field text) (ofOptionalField n field text') := by
  cases h with
  | none => exact .ok rfl
  | @some text text' h =>
      unfold ofOptionalField
      rcases agree_iff.1 (@ofField_agree n field text text' h) with
        ⟨a, b, ha, hb, rfl⟩ | ⟨e, e', he, he'⟩
      · simp only [ha, hb]
        exact .ok rfl
      · simp only [he, he']
        exact .error _ _

end Fields

/-! ## Headers and reports -/

theorem InfoDocument.fields_follow : fields.Follow Schema.report.member
    fun d d' => Agree Eq (Info.ofDocument d) (Info.ofDocument d') := by
  refine Fields.seq_follow (Fields.seq_follow (Fields.seq_follow (Fields.seq_follow
    (Fields.seq_follow (Fields.seq_follow (Fields.map_follow
      (Fields.optional_follow rfl) ?_)
      (Fields.optional_follow rfl)) (Fields.optional_follow rfl))
      (Fields.nullable_digits_follow "hash" rfl))
      (Fields.nullable_digits_follow "merkleComponentHash" rfl))
      (Fields.nullable_digits_follow "aggregateHash" rfl)) (Fields.optional_follow rfl)
  rintro height _ rfl index _ rfl id _ rfl hash hash' hhash merkle merkle' hmerkle
    aggregate aggregate' haggregate aggregateId _ rfl
  refine agree_bind (Octets.ofOptionalField_agree hhash) ?_
  rintro hash _ rfl
  refine agree_bind (Octets.ofOptionalField_agree hmerkle) ?_
  rintro merkle _ rfl
  refine agree_bind (Octets.ofOptionalField_agree haggregate) ?_
  rintro aggregate _ rfl
  exact .ok rfl

theorem InfoDocument.decoder_follows : decoder.Follows Schema.report
    fun d d' => Agree Eq (Info.ofDocument d) (Info.ofDocument d') :=
  Fields.record_follows _ fields_follow (List.prefix_refl _)

theorem HeaderDocument.fields_follow : fields.Follow Schema.transaction.member
    fun d d' => ∀ info, Agree Eq (Header.ofDocument d info) (Header.ofDocument d' info) := by
  refine Fields.seq_follow (Fields.seq_follow (Fields.seq_follow (Fields.seq_follow
    (Fields.seq_follow (Fields.map_follow
      (Fields.nullable_digits_follow "signature" rfl) ?_)
      (Fields.nullable_digits_follow "signer" rfl)) (Fields.required_follow rfl))
      (Fields.required_follow rfl)) (Fields.optional_follow rfl)) (Fields.optional_follow rfl)
  rintro signature signature' hsignature signer signer' hsigner version _ rfl code _ rfl
    fee _ rfl deadline _ rfl info
  refine agree_bind (agree_self _) ?_
  rintro type _ rfl
  simp only []
  cases Network.ofPacked version with
  | error e => exact .error _ _
  | ok network =>
      refine agree_bind (agree_self _) ?_
      rintro network _ rfl
      refine agree_bind (Octets.ofOptionalField_agree hsigner) ?_
      rintro signer _ rfl
      refine agree_bind (Octets.ofOptionalField_agree hsignature) ?_
      rintro signature _ rfl
      exact .ok rfl

/-! ## Entries of lists -/

theorem SizedFile.fields_follow : fields.Follow Schema.file.member Eq := by
  refine Fields.seq_follow (Fields.map_follow
    (Fields.octets_follow "fileHash" rfl) ?_) (Fields.required_follow rfl)
  rintro hash _ rfl size _ rfl
  rfl

theorem fileFields_follow : fileFields.Follow Schema.file.member Eq := by
  refine Fields.map_follow (Fields.octets_follow "fileHash" rfl) ?_
  rintro hash _ rfl
  rfl

theorem UploadDocument.fields_follow : fields.Follow Schema.upload.member fun d d' =>
    ∀ network, Agree Eq (Upload.ofDocument network d) (Upload.ofDocument network d') := by
  refine Fields.seq_follow (Fields.map_follow
    (Fields.digits_follow "participant" rfl) ?_) (Fields.required_follow rfl)
  rintro participant participant' hparticipant uploaded _ rfl network
  refine agree_bind (Account.ofField_agree hparticipant) ?_
  rintro account _ rfl
  exact .ok rfl

theorem FailureDocument.fields_follow : fields.Follow Schema.failure.member fun d d' =>
    ∀ network, Agree Eq (VerificationFailure.ofDocument network d)
      (VerificationFailure.ofDocument network d') := by
  have hblocks := Fields.list_follow Schema.failure.member "blockHashes" rfl
    (Decoder.list_follows (Decoder.octets_follows 32))
  refine Fields.seq_follow (Fields.map_follow
    (Fields.digits_follow "replicator" rfl) ?_) hblocks
  rintro replicator replicator' hreplicator blocks blocks' hblocks network
  rw [List.forall₂_eq_eq_eq] at hblocks
  subst hblocks
  refine agree_bind (Account.ofField_agree hreplicator) ?_
  rintro account _ rfl
  exact .ok rfl

theorem CosignatureDocument.fields_follow : fields.Follow Schema.cosignature.member fun d d' =>
    ∀ network, Agree Eq (Cosignature.ofDocument network d) (Cosignature.ofDocument network d') := by
  refine Fields.seq_follow (Fields.map_follow
    (Fields.digits_follow "signer" rfl) ?_) (Fields.digits_follow "signature" rfl)
  rintro signer signer' hsigner signature signature' hsignature network
  refine agree_bind (Account.ofField_agree hsigner) ?_
  rintro account _ rfl
  refine agree_bind (Octets.ofField_agree hsignature) ?_
  rintro signature _ rfl
  exact .ok rfl

/-! ## Payloads -/

namespace Payload

/-- What is said of recased fields on any network. -/
def SameMeaning (p p' : PayloadDocument) : Prop :=
  ∀ network, Agree Eq (p network) (p' network)

theorem driveFields_follow (make : Account → Payload) :
    (driveFields make).Follow Schema.transaction.member SameMeaning := by
  refine Fields.map_follow (Fields.digits_follow "driveKey" rfl) ?_
  intro drive drive' hdrive network
  refine agree_bind (Account.ofField_agree hdrive) ?_
  rintro account _ rfl
  exact .ok rfl

theorem prepareDriveFields_follow :
    prepareDriveFields.Follow Schema.transaction.member SameMeaning := by
  refine Fields.seq_follow (Fields.seq_follow (Fields.seq_follow (Fields.seq_follow
    (Fields.seq_follow (Fields.seq_follow (Fields.seq_follow (Fields.map_follow
      (Fields.digits_follow "owner" rfl) ?_)
      (Fields.required_follow rfl)) (Fields.required_follow rfl)) (Fields.required_follow rfl))
      (Fields.required_follow rfl)) (Fields.required_follow rfl)) (Fields.required_follow rfl))
      (Fields.required_follow rfl)
  rintro owner owner' howner duration _ rfl period _ rfl price _ rfl size _ rfl replicas _ rfl
    least _ rfl percent _ rfl network
  refine agree_bind (Account.ofField_agree howner) ?_
  rintro account _ rfl
  exact .ok rfl

theorem driveFileSystemFields_follow :
    driveFileSystemFields.Follow Schema.transaction.member SameMeaning := by
  have hadded := Fields.equal_records_follow Schema.transaction.member "addActions"
    "struct AddAction" rfl SizedFile.fields_follow (List.prefix_refl _)
  have hremoved := Fields.equal_records_follow Schema.transaction.member "removeActions"
    "struct RemoveAction" rfl fileFields_follow ⟨["fileSize"], rfl⟩
  refine Fields.seq_follow (Fields.seq_follow (Fields.seq_follow (Fields.seq_follow
    (Fields.seq_follow (Fields.seq_follow (Fields.map_follow
      (Fields.digits_follow "driveKey" rfl) ?_)
      (Fields.digits_follow "rootHash" rfl)) (Fields.digits_follow "xorRootHash" rfl))
      (Fields.required_follow rfl)) (Fields.required_follow rfl)) hadded) hremoved
  rintro drive drive' hdrive root root' hroot xorRoot xorRoot' hxorRoot adds _ rfl removes _ rfl
    added _ rfl removed _ rfl network
  refine agree_bind (agree_self _) fun _ _ _ => ?_
  refine agree_bind (agree_self _) fun _ _ _ => ?_
  refine agree_bind (Octets.ofField_agree hroot) ?_
  rintro root _ rfl
  refine agree_bind (Octets.ofField_agree hxorRoot) ?_
  rintro xorRoot _ rfl
  refine agree_bind (Account.ofField_agree hdrive) ?_
  rintro account _ rfl
  exact .ok rfl

theorem filesDepositFields_follow :
    filesDepositFields.Follow Schema.transaction.member SameMeaning := by
  have hfiles := Fields.equal_records_follow Schema.transaction.member "files"
    "struct File" rfl fileFields_follow ⟨["fileSize"], rfl⟩
  refine Fields.seq_follow (Fields.seq_follow (Fields.map_follow
    (Fields.digits_follow "driveKey" rfl) ?_) (Fields.required_follow rfl)) hfiles
  rintro drive drive' hdrive count _ rfl files _ rfl network
  refine agree_bind (agree_self _) fun _ _ _ => ?_
  refine agree_bind (Account.ofField_agree hdrive) ?_
  rintro account _ rfl
  exact .ok rfl

theorem driveFilesRewardFields_follow :
    driveFilesRewardFields.Follow Schema.transaction.member SameMeaning := by
  have huploads := Fields.records_follow Schema.transaction.member "uploadInfos"
    "struct UploadInfoDto" rfl UploadDocument.fields_follow (List.prefix_refl _)
  refine Fields.seq_follow (Fields.map_follow (Fields.required_follow rfl) ?_) huploads
  rintro count _ rfl uploads uploads' huploads network
  simp only [huploads.length_eq]
  refine agree_bind (agree_self _) fun _ _ _ => ?_
  refine agree_bind (agree_mapM_eq huploads fun _ _ _ h => h network) ?_
  rintro uploads _ rfl
  exact .ok rfl

theorem endDriveVerificationFields_follow :
    endDriveVerificationFields.Follow Schema.transaction.member SameMeaning := by
  have hfailures := Fields.records_follow Schema.transaction.member
    "verificationFailures" "struct FailureVerificationDto" rfl FailureDocument.fields_follow
    (List.prefix_refl _)
  refine Fields.map_follow hfailures fun failures failures' hfailures network => ?_
  refine agree_bind (agree_mapM_eq hfailures fun _ _ _ h => h network) ?_
  rintro failures _ rfl
  exact .ok rfl

theorem startFileDownloadFields_follow :
    startFileDownloadFields.Follow Schema.transaction.member SameMeaning := by
  have hfiles := Fields.equal_records_follow Schema.transaction.member "files"
    "struct DownloadFile" rfl SizedFile.fields_follow (List.prefix_refl _)
  refine Fields.seq_follow (Fields.seq_follow (Fields.map_follow
    (Fields.digits_follow "driveKey" rfl) ?_) (Fields.required_follow rfl)) hfiles
  rintro drive drive' hdrive count _ rfl files _ rfl network
  refine agree_bind (agree_self _) fun _ _ _ => ?_
  refine agree_bind (Account.ofField_agree hdrive) ?_
  rintro account _ rfl
  exact .ok rfl

theorem endFileDownloadFields_follow :
    endFileDownloadFields.Follow Schema.transaction.member SameMeaning := by
  have hfiles := Fields.equal_records_follow Schema.transaction.member "files"
    "struct DownloadFile" rfl SizedFile.fields_follow (List.prefix_refl _)
  refine Fields.seq_follow (Fields.seq_follow (Fields.seq_follow (Fields.map_follow
    (Fields.digits_follow "fileRecipient" rfl) ?_) (Fields.digits_follow "operationToken" rfl))
    (Fields.required_follow rfl)) hfiles
  rintro recipient recipient' hrecipient token token' htoken count _ rfl files _ rfl network
  refine agree_bind (agree_self _) fun _ _ _ => ?_
  refine agree_bind (Account.ofField_agree hrecipient) ?_
  rintro account _ rfl
  refine agree_bind (Octets.ofField_agree htoken) ?_
  rintro token _ rfl
  exact .ok rfl

theorem fields?_follow {shape : Shape} {own : Fields PayloadDocument}
    (h : fields? shape = some own) : own.Follow Schema.transaction.member SameMeaning := by
  cases shape <;> cases h
  case prepareDrive => exact prepareDriveFields_follow
  case joinToDrive => exact driveFields_follow .joinToDrive
  case driveFileSystem => exact driveFileSystemFields_follow
  case filesDeposit => exact filesDepositFields_follow
  case endDrive => exact driveFields_follow .endDrive
  case driveFilesReward => exact driveFilesRewardFields_follow
  case startDriveVerification => exact driveFields_follow .startDriveVerification
  case endDriveVerification => exact endDriveVerificationFields_follow
  case startFileDownload => exact startFileDownloadFields_follow
  case endFileDownload => exact endFileDownloadFields_follow

end Payload

/-! ## Envelopes -/

namespace Transaction

theorem aggregateFields_follow : aggregateFields.Follow Schema.transaction.member
    fun d d' => ∀ network, Agree Eq (d.2.mapM (Cosignature.ofDocument network))
      (d'.2.mapM (Cosignature.ofDocument network)) := by
  have htransactions := Fields.list_follow Schema.transaction.member "transactions"
    rfl (Decoder.valueList_follows .envelope)
  have hcosignatures := Fields.records_follow Schema.transaction.member
    "cosignatures" "struct CosignatureDto" rfl CosignatureDocument.fields_follow
    (List.prefix_refl _)
  refine Fields.seq_follow (Fields.map_follow htransactions ?_) hcosignatures
  intro inner inner' _ cosignatures cosignatures' hcosignatures network
  exact agree_mapM_eq hcosignatures fun _ _ _ h => h network

/-- What two envelopes say, part by part. -/
structure SameParts {α : Type} (R : α → α → Prop)
    (parts parts' : HeaderDocument × α × Option InfoDocument) : Prop where
  header : ∀ info, Agree Eq (Header.ofDocument parts.1 info) (Header.ofDocument parts'.1 info)
  own : R parts.2.1 parts'.2.1
  info : Agree Eq (infoOf parts.2.2) (infoOf parts'.2.2)

theorem infoOf_agree {report report' : Option InfoDocument}
    (h : Option.Rel (fun d d' => Agree Eq (Info.ofDocument d) (Info.ofDocument d'))
      report report') : Agree Eq (infoOf report) (infoOf report') := by
  cases h with
  | none => exact .ok rfl
  | @some d d' h =>
      unfold infoOf
      rcases agree_iff.1 h with ⟨info, _, ha, hb, rfl⟩ | ⟨e, e', he, he'⟩
      · simp only [ha, hb]
        exact .ok rfl
      · simp only [he, he']
        exact .error _ _

theorem envelopeFields_follow {α : Type} {own : Fields α} {R : α → α → Prop}
    (h : own.Follow Schema.transaction.member R) :
    (envelopeFields own).Follow Schema.envelope.member fun parts parts' =>
      SameParts R (parts.1.1, parts.1.2, parts.2) (parts'.1.1, parts'.1.2, parts'.2) := by
  have htransaction : (Fields.required "transaction"
      (own.beside "a transaction" HeaderDocument.fields)).Follow Schema.envelope.member _ :=
    Fields.field_follow (Fields.beside_follows .transaction "a transaction" h
      HeaderDocument.fields_follow) fun _ h => nomatch h
  have hmeta := Fields.nullable_follow Schema.envelope.member "meta" rfl
    InfoDocument.decoder_follows
  refine Fields.seq_follow (Fields.map_follow htransaction ?_) hmeta
  intro both both' hboth report report' hreport
  exact ⟨hboth.1, hboth.2, infoOf_agree hreport⟩

theorem envelope_agree {α : Type} {own : Fields α} {R : α → α → Prop}
    (h : own.Follow Schema.transaction.member R) {document document' : Json}
    (hdocument : Recased .envelope document document') :
    Agree (SameParts R) (envelope own document) (envelope own document') := by
  have hget := hdocument.get? "transaction"
  cases document with
  | object members =>
      obtain ⟨members', rfl, hmembers⟩ := hdocument.object_left
      have hparts : Agree _ ((envelopeFields own).record "an envelope" .value (.object members))
          ((envelopeFields own).record "an envelope" .value (.object members')) :=
        Fields.ofObject_agree (envelopeFields_follow h) .value hmembers
      unfold envelope
      rw [← envelopeFields]
      generalize Json.get? "transaction" (.object members) = found,
        Json.get? "transaction" (.object members') = found',
        Schema.envelope.member "transaction" = schema at hget ⊢
      cases hget with
      | none => exact .error _ _
      | @some value value' hvalue =>
          cases value with
          | object inside =>
              obtain ⟨inside', rfl, _⟩ := hvalue.object_left
              rcases agree_iff.1 hparts with ⟨a, b, ha, hb, hab⟩ | ⟨e, e', he, he'⟩
              · simp only [ha, hb]
                exact .ok hab
              · simp only [he, he']
                exact .error _ _
          | _ => cases hvalue <;> exact .error _ _
  | _ => cases hdocument <;> exact .error _ _

/-- Codes of types are numbers, whose places no digits have. -/
theorem declaredJsonType_eq {document document' : Json}
    (h : Recased .envelope document document') :
    declaredJsonType document = declaredJsonType document' := by
  unfold declaredJsonType
  have hget := h.get? "transaction"
  generalize document.get? "transaction" = found, document'.get? "transaction" = found' at hget ⊢
  cases hget with
  | none => rfl
  | @some value value' hvalue =>
      have htype := @Recased.get? .transaction value value' hvalue "type"
      simp only []
      generalize value.get? "type" = code, value'.get? "type" = code' at htype ⊢
      cases htype with
      | none => rfl
      | @some code code' hcode =>
          rw [Recased.eq_of_other (show Recased .other code code' from hcode)]

theorem innerDocuments_recased {document document' : Json}
    (h : Recased .envelope document document') :
    List.Forall₂ (Recased .envelope) (innerDocuments document) (innerDocuments document') := by
  unfold innerDocuments
  have hget := h.get? "transaction"
  generalize document.get? "transaction" = found, document'.get? "transaction" = found' at hget ⊢
  cases hget with
  | none => exact .nil
  | @some value value' hvalue =>
      have hinner := @Recased.get? .transaction value value' hvalue "transactions"
      simp only [Option.bind_some]
      generalize value.get? "transactions" = items, value'.get? "transactions" = items'
        at hinner ⊢
      cases hinner with
      | none => exact .nil
      | @some items items' hitems =>
          have hlist : Recased (.list .envelope) items items' := hitems
          cases items with
          | array items =>
              obtain ⟨items', rfl, heach⟩ := hlist.array_left
              exact heach.forall₂ fun _ => rfl
          | _ => cases hlist <;> exact .nil

/-! ## Transactions -/

theorem checkInner_agree {result result' : Except TransactionError Transaction}
    (h : Agree Eq result result') : Agree Eq (checkInner result) (checkInner result') := by
  cases h with
  | ok h => exact h ▸ agree_self _
  | error e e' => exact .error _ _

theorem singleOfJson_agree {own : Fields PayloadDocument}
    (hown : own.Follow Schema.transaction.member Payload.SameMeaning) {document document' : Json}
    (h : Recased .envelope document document') :
    Agree Eq (singleOfJson own document) (singleOfJson own document') := by
  refine agree_bind (envelope_agree hown h) ?_
  rintro ⟨d, make, report⟩ ⟨d', make', report'⟩ hparts
  refine agree_bind hparts.info ?_
  rintro info _ rfl
  refine agree_bind (hparts.header info) ?_
  rintro header _ rfl
  refine agree_bind (hparts.own header.network) ?_
  rintro payload _ rfl
  exact .ok rfl

theorem aggregateOfJson_agree {document document' : Json}
    (h : Recased .envelope document document')
    {inner inner' : Unit → Except TransactionError (List Transaction)}
    (hinner : Agree Eq (inner ()) (inner' ())) :
    Agree Eq (aggregateOfJson document inner) (aggregateOfJson document' inner') := by
  refine agree_bind (envelope_agree aggregateFields_follow h) ?_
  rintro ⟨d, rest, report⟩ ⟨d', rest', report'⟩ hparts
  refine agree_bind hparts.info ?_
  rintro info _ rfl
  refine agree_bind (hparts.header info) ?_
  rintro header _ rfl
  refine agree_bind hinner ?_
  rintro txs _ rfl
  refine agree_bind (hparts.own header.network) ?_
  rintro cosignatures _ rfl
  exact .ok rfl

theorem ofJsonWith_agree {shape : Shape} {document document' : Json}
    (h : Recased .envelope document document')
    {inner inner' : Unit → Except TransactionError (List Transaction)}
    (hinner : Agree Eq (inner ()) (inner' ())) :
    Agree Eq (ofJsonWith shape document inner) (ofJsonWith shape document' inner') := by
  unfold ofJsonWith
  cases hfields : Payload.fields? shape with
  | none =>
      refine agree_bind (aggregateOfJson_agree h hinner) ?_
      rintro tx _ rfl
      exact agree_self _
  | some own =>
      refine agree_bind (singleOfJson_agree (Payload.fields?_follow hfields) h) ?_
      rintro tx _ rfl
      exact agree_self _

/-- Recased documents are read as one transaction or not at all. The documents inside are
smaller than the whole, and are read so before it. -/
theorem ofJson_agree (document document' : Json) (h : Recased .envelope document document') :
    Agree Eq (ofJson document) (ofJson document') := by
  rw [ofJson_eq, ofJson_eq, declaredJsonType_eq h]
  cases declaredJsonType document' with
  | error e => exact .error _ _
  | ok type =>
      refine ofJsonWith_agree h (agree_mapM_eq (innerDocuments_recased h) ?_)
      intro value hmem value' hvalue
      have hsmaller := sizeOf_lt_of_mem_innerDocuments hmem
      exact checkInner_agree (ofJson_agree value value' hvalue)
termination_by sizeOf document

end Transaction

end DriveChain
