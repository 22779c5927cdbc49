import DriveChain.Json.Decoder
import DriveChain.Transaction.Basic

/-!
# The JSON form of transactions

A transaction's document holds the transaction and, if a node reported it, where it is on the chain.
The transaction's own fields and those of its header stand side by side. Keys, hashes and signatures
are hexadecimal texts, and 64-bit numbers are pairs of words.

Reading goes in two steps: first all values have to have the right shapes, then they are taken at
their meaning, the header before the rest.
-/

namespace DriveChain

namespace Json

/-- A 64-bit number as it stands in documents. -/
def ofWord64 (n : UInt64) : Json :=
  words (Words.low n) (Words.high n)

/-- Octets in hexadecimal. -/
def ofOctets {n : Nat} (octets : Octets n) : Json :=
  .string octets.hex

end Json

open Json (Decoder Fields)

/-- Octets in hexadecimal, as a value of a document. -/
def Octets.decoder (n : Nat) : Decoder (Octets n) :=
  Decoder.text.check fun text =>
    match Octets.ofHex n text with
    | .error e => .error e.message
    | .ok octets => .ok octets

/-- Octets in hexadecimal, as the text of a field. -/
def Octets.ofField (n : Nat) (field : String) (text : String) :
    Except TransactionError (Octets n) :=
  match Octets.ofHex n text with
  | .error e => .error (.malformed field (.hex e))
  | .ok octets => .ok octets

/-- An account on a network whose key is the text of a field. -/
def Account.ofField (field : String) (text : String) (network : Network) :
    Except TransactionError Account :=
  match Octets.ofField 32 field text with
  | .error e => .error e
  | .ok key => .ok (.ofKey key network)

/-- A text of a field that may be absent. -/
def Octets.ofOptionalField (n : Nat) (field : String) :
    Option String → Except TransactionError (Option (Octets n))
  | none => .ok none
  | some text =>
    match Octets.ofField n field text with
    | .error e => .error e
    | .ok octets => .ok (some octets)

/-- The number of entries of a list has to be the announced one. -/
def checkCount (field : String) (announced : UInt16) (found : Nat) : Except TransactionError Unit :=
  if announced.toNat = found then .ok ()
  else .error (.malformed field (.count announced.toNat found))

/-! ## What a node reports -/

/-- The document of an `Info`: every field may be absent. -/
structure InfoDocument where
  height : Option UInt64
  index : Option UInt32
  id : Option String
  hash : Option String
  merkleComponentHash : Option String
  aggregateHash : Option String
  aggregateId : Option String
deriving DecidableEq

namespace InfoDocument

/-- The fields of a report; each of them may be missing or null. -/
def fields : Fields InfoDocument :=
  InfoDocument.mk <$> .nullable "height" Decoder.pair <*> .nullable "index" Decoder.word32
    <*> .nullable "id" Decoder.text <*> .nullable "hash" Decoder.text
    <*> .nullable "merkleComponentHash" Decoder.text <*> .nullable "aggregateHash" Decoder.text
    <*> .nullable "aggregateId" Decoder.text

/-- A report in a document. -/
def decoder : Decoder InfoDocument :=
  fields.record "struct TransactionInfoDto"

end InfoDocument

/-- A member that stands in an object only if there is a value for it. -/
def optionalMember {α : Type} (name : String) (write : α → Json) :
    Option α → List (String × Json)
  | none => []
  | some a => [(name, write a)]

namespace Info

/-- The report at its meaning; numbers that are missing are zero, and a missing id is empty. -/
def ofDocument (d : InfoDocument) : Except TransactionError Info := do
  let hash ← Octets.ofOptionalField 32 "meta.hash" d.hash
  let merkleComponentHash ← Octets.ofOptionalField 32 "meta.merkleComponentHash"
    d.merkleComponentHash
  let aggregateHash ← Octets.ofOptionalField 32 "meta.aggregateHash" d.aggregateHash
  return {
    height := d.height.getD 0
    index := d.index.getD 0
    id := d.id.getD ""
    hash, merkleComponentHash, aggregateHash
    aggregateId := d.aggregateId }

/-- The members of a report's document; hashes that are unknown are left out. -/
def members (info : Info) : List (String × Json) :=
  [("height", .ofWord64 info.height), ("index", .natural info.index.toNat),
   ("id", .string info.id)] ++
    optionalMember "hash" Json.ofOctets info.hash ++
    optionalMember "merkleComponentHash" Json.ofOctets info.merkleComponentHash ++
    optionalMember "aggregateHash" Json.ofOctets info.aggregateHash ++
    optionalMember "aggregateId" Json.string info.aggregateId

end Info

/-! ## Headers -/

/-- The document of a header. -/
structure HeaderDocument where
  signature : Option String
  signer : Option String
  packedVersion : UInt32
  code : UInt16
  maxFee : UInt64
  deadline : UInt64
deriving DecidableEq

namespace HeaderDocument

/-- The fields of a header, which stand beside those of its transaction. -/
def fields : Fields HeaderDocument :=
  HeaderDocument.mk <$> .nullable "signature" Decoder.text <*> .nullable "signer" Decoder.text
    <*> .required "version" Decoder.word32 <*> .required "type" Decoder.word16
    <*> .optional "maxFee" Decoder.pair 0 <*> .optional "deadline" Decoder.pair 0

/-- A header on its own. -/
def decoder : Decoder HeaderDocument :=
  fields.record "a header"

/-- The members of a header's document; an absent signer or signature is left out. -/
def members (d : HeaderDocument) : List (String × Json) :=
  optionalMember "signature" Json.string d.signature ++
    optionalMember "signer" Json.string d.signer ++
    [("version", .natural d.packedVersion.toNat), ("type", .natural d.code.toNat),
     ("maxFee", .ofWord64 d.maxFee), ("deadline", .ofWord64 d.deadline)]

end HeaderDocument

namespace Header

/-- The header at its meaning: type, network, signer and signature are looked at in this
order. -/
def ofDocument (d : HeaderDocument) (info : Option Info) : Except TransactionError Header := do
  let type ← TransactionType.ofCode d.code
  let network ←
    match Network.ofPacked d.packedVersion with
    | .error e => .error (.network e)
    | .ok network => .ok network
  let signer ← Octets.ofOptionalField 32 "signer" d.signer
  let signature ← Octets.ofOptionalField 64 "signature" d.signature
  return {
    network
    version := unpackVersion d.packedVersion
    type
    deadline := d.deadline
    maxFee := d.maxFee
    signer := (signer.bind Octets.nonzero?).map (Account.ofKey · network)
    signature := signature.bind Octets.nonzero?
    info }

/-- The document of a header. -/
def document (h : Header) : HeaderDocument where
  signature := h.signature.map Octets.hex
  signer := h.signer.map (·.key.hex)
  packedVersion := h.packedVersion
  code := h.type.code
  maxFee := h.maxFee
  deadline := h.deadline

/-- The members of a header in the document of its transaction. -/
def members (h : Header) : List (String × Json) :=
  h.document.members

end Header

/-! ## Entries of lists -/

namespace SizedFile

/-- The fields of a file with its size. -/
def fields : Fields SizedFile :=
  SizedFile.mk <$> .required "fileHash" (Octets.decoder 32) <*> .required "fileSize" Decoder.pair

/-- The document of a file with its size. -/
def json (file : SizedFile) : Json :=
  .object [("fileHash", .ofOctets file.hash), ("fileSize", .ofWord64 file.size)]

/-- A file that a change adds. -/
def addedDecoder : Decoder SizedFile :=
  fields.record "struct AddAction"

/-- A file that is downloaded. -/
def downloadDecoder : Decoder SizedFile :=
  fields.record "struct DownloadFile"

end SizedFile

/-- A file that is given by its hash alone. -/
def fileFields : Fields Hash :=
  id <$> .required "fileHash" (Octets.decoder 32)

/-- The document of a file that is given by its hash alone. -/
def fileJson (hash : Hash) : Json :=
  .object [("fileHash", .ofOctets hash)]

/-- A file that a change removes. -/
def removedDecoder : Decoder Hash :=
  fileFields.record "struct RemoveAction"

/-- A file that is deposited. -/
def depositDecoder : Decoder Hash :=
  fileFields.record "struct File"

/-- The document of an upload. -/
structure UploadDocument where
  participant : String
  uploaded : UInt64
deriving DecidableEq

namespace UploadDocument

/-- The fields of an upload. -/
def fields : Fields UploadDocument :=
  UploadDocument.mk <$> .required "participant" Decoder.text <*> .required "uploaded" Decoder.pair

/-- An upload in a document. -/
def decoder : Decoder UploadDocument :=
  fields.record "struct UploadInfoDto"

/-- An upload's document as a value. -/
def json (d : UploadDocument) : Json :=
  .object [("participant", .string d.participant), ("uploaded", .ofWord64 d.uploaded)]

end UploadDocument

namespace Upload

/-- The upload at its meaning on a network. -/
def ofDocument (network : Network) (d : UploadDocument) : Except TransactionError Upload := do
  let participant ← Account.ofField "uploadInfos.participant" d.participant network
  return ⟨participant, d.uploaded⟩

/-- The document of an upload, as a value. -/
def json (u : Upload) : Json :=
  UploadDocument.json ⟨u.participant.key.hex, u.uploaded⟩

end Upload

/-- The document of a verification failure. -/
structure FailureDocument where
  replicator : String
  blocks : List Hash
deriving DecidableEq

namespace FailureDocument

/-- The fields of a verification failure, which may be without blocks. -/
def fields : Fields FailureDocument :=
  FailureDocument.mk <$> .required "replicator" Decoder.text
    <*> .optional "blockHashes" (.list (Octets.decoder 32)) []

/-- A verification failure in a document. -/
def decoder : Decoder FailureDocument :=
  fields.record "struct FailureVerificationDto"

/-- A verification failure's document as a value. -/
def json (d : FailureDocument) : Json :=
  .object [("replicator", .string d.replicator), ("blockHashes", .array (d.blocks.map .ofOctets))]

end FailureDocument

namespace VerificationFailure

/-- The verification failure at its meaning on a network. -/
def ofDocument (network : Network) (d : FailureDocument) :
    Except TransactionError VerificationFailure := do
  let replicator ← Account.ofField "verificationFailures.replicator" d.replicator network
  return ⟨replicator, d.blocks⟩

/-- The document of a verification failure, as a value. -/
def json (f : VerificationFailure) : Json :=
  FailureDocument.json ⟨f.replicator.key.hex, f.blocks⟩

end VerificationFailure

/-- The document of a cosignature. -/
structure CosignatureDocument where
  signer : String
  signature : String
deriving DecidableEq

namespace CosignatureDocument

/-- The fields of a cosignature. -/
def fields : Fields CosignatureDocument :=
  CosignatureDocument.mk <$> .required "signer" Decoder.text <*> .required "signature" Decoder.text

/-- A cosignature in a document. -/
def decoder : Decoder CosignatureDocument :=
  fields.record "struct CosignatureDto"

end CosignatureDocument

namespace Cosignature

/-- The cosignature at its meaning on a network. -/
def ofDocument (network : Network) (d : CosignatureDocument) :
    Except TransactionError Cosignature := do
  let signer ← Account.ofField "cosignatures.signer" d.signer network
  let signature ← Octets.ofField 64 "cosignatures.signature" d.signature
  return ⟨signer, signature⟩

/-- The document of a cosignature, as a value. -/
def json (c : Cosignature) : Json :=
  .object [("signature", .ofOctets c.signature), ("signer", .ofOctets c.signer.key)]

end Cosignature

/-! ## Payloads -/

/-- What the document of a payload says on a network. -/
abbrev PayloadDocument := Network → Except TransactionError Payload

namespace Payload

/-- The documents of the payloads that name nothing but a drive. -/
def driveFields (make : Account → Payload) : Fields PayloadDocument :=
  (fun drive network => do return make (← Account.ofField "driveKey" drive network))
    <$> .required "driveKey" Decoder.text

/-- The documents of the terms of a new drive. -/
def prepareDriveFields : Fields PayloadDocument :=
  (fun owner duration billingPeriod billingPrice driveSize replicas minReplicators percentApprovers
      network => do
    let owner ← Account.ofField "owner" owner network
    return .prepareDrive {
      owner, duration, billingPeriod, billingPrice, driveSize, replicas, minReplicators,
      percentApprovers })
    <$> .required "owner" Decoder.text <*> .required "duration" Decoder.pair
    <*> .required "billingPeriod" Decoder.pair <*> .required "billingPrice" Decoder.pair
    <*> .required "driveSize" Decoder.pair <*> .required "replicas" Decoder.word16
    <*> .required "minReplicators" Decoder.word16 <*> .required "percentApprovers" Decoder.word8

/-- The documents of changes of a drive's files; the old root comes from the other two
hashes. -/
def driveFileSystemFields : Fields PayloadDocument :=
  (fun drive newRoot xorRoot adds removes added removed network => do
    checkCount "addActionsCount" adds added.length
    checkCount "removeActionsCount" removes removed.length
    let newRoot ← Octets.ofField 32 "rootHash" newRoot
    let xorRoot ← Octets.ofField 32 "xorRootHash" xorRoot
    let drive ← Account.ofField "driveKey" drive network
    return .driveFileSystem { drive, newRoot, oldRoot := xorRoot.xor newRoot, added, removed })
    <$> .required "driveKey" Decoder.text <*> .required "rootHash" Decoder.text
    <*> .required "xorRootHash" Decoder.text <*> .required "addActionsCount" Decoder.word16
    <*> .required "removeActionsCount" Decoder.word16
    <*> .optional "addActions" (.list SizedFile.addedDecoder) []
    <*> .optional "removeActions" (.list removedDecoder) []

/-- The documents of deposits. -/
def filesDepositFields : Fields PayloadDocument :=
  (fun drive count files network => do
    checkCount "filesCount" count files.length
    return .filesDeposit (← Account.ofField "driveKey" drive network) files)
    <$> .required "driveKey" Decoder.text <*> .required "filesCount" Decoder.word16
    <*> .optional "files" (.list depositDecoder) []

/-- The documents of rewards. -/
def driveFilesRewardFields : Fields PayloadDocument :=
  (fun count uploads network => do
    checkCount "uploadInfosCount" count uploads.length
    return .driveFilesReward (← uploads.mapM (Upload.ofDocument network)))
    <$> .required "uploadInfosCount" Decoder.word16
    <*> .optional "uploadInfos" (.list UploadDocument.decoder) []

/-- The documents of the ends of verifications, which announce no count. -/
def endDriveVerificationFields : Fields PayloadDocument :=
  (fun failures network => do
    return .endDriveVerification (← failures.mapM (VerificationFailure.ofDocument network)))
    <$> .optional "verificationFailures" (.list FailureDocument.decoder) []

/-- The documents of downloads that start. -/
def startFileDownloadFields : Fields PayloadDocument :=
  (fun drive count files network => do
    checkCount "fileCount" count files.length
    return .startFileDownload (← Account.ofField "driveKey" drive network) files)
    <$> .required "driveKey" Decoder.text <*> .required "fileCount" Decoder.word16
    <*> .optional "files" (.list SizedFile.downloadDecoder) []

/-- The documents of downloads that end. -/
def endFileDownloadFields : Fields PayloadDocument :=
  (fun recipient token count files network => do
    checkCount "fileCount" count files.length
    let recipient ← Account.ofField "fileRecipient" recipient network
    let token ← Octets.ofField 32 "operationToken" token
    return .endFileDownload recipient token files)
    <$> .required "fileRecipient" Decoder.text <*> .required "operationToken" Decoder.text
    <*> .required "fileCount" Decoder.word16
    <*> .optional "files" (.list SizedFile.downloadDecoder) []

/-- The fields that payloads of a shape have; aggregates have none of these. -/
def fields? : Shape → Option (Fields PayloadDocument)
  | .prepareDrive => some prepareDriveFields
  | .joinToDrive => some (driveFields .joinToDrive)
  | .driveFileSystem => some driveFileSystemFields
  | .filesDeposit => some filesDepositFields
  | .endDrive => some (driveFields .endDrive)
  | .driveFilesReward => some driveFilesRewardFields
  | .startDriveVerification => some (driveFields .startDriveVerification)
  | .endDriveVerification => some endDriveVerificationFields
  | .startFileDownload => some startFileDownloadFields
  | .endFileDownload => some endFileDownloadFields
  | .aggregate => none

/-- The members of a payload's document. -/
def members : Payload → Except TransactionError (List (String × Json))
  | .prepareDrive terms =>
    .ok [("owner", .ofOctets terms.owner.key), ("duration", .ofWord64 terms.duration),
      ("billingPeriod", .ofWord64 terms.billingPeriod),
      ("billingPrice", .ofWord64 terms.billingPrice), ("driveSize", .ofWord64 terms.driveSize),
      ("replicas", .natural terms.replicas.toNat),
      ("minReplicators", .natural terms.minReplicators.toNat),
      ("percentApprovers", .natural terms.percentApprovers.toNat)]
  | .joinToDrive drive => .ok [("driveKey", .ofOctets drive.key)]
  | .driveFileSystem change => do
    let adds ← wireCount "addActions" change.added.length
    let removes ← wireCount "removeActions" change.removed.length
    return [("driveKey", .ofOctets change.drive.key), ("rootHash", .ofOctets change.newRoot),
      ("xorRootHash", .ofOctets change.xorRoot), ("addActionsCount", .natural adds.toNat),
      ("removeActionsCount", .natural removes.toNat),
      ("addActions", .array (change.added.map SizedFile.json)),
      ("removeActions", .array (change.removed.map fileJson))]
  | .filesDeposit drive files => do
    let count ← wireCount "files" files.length
    return [("driveKey", .ofOctets drive.key), ("filesCount", .natural count.toNat),
      ("files", .array (files.map fileJson))]
  | .endDrive drive => .ok [("driveKey", .ofOctets drive.key)]
  | .driveFilesReward uploads => do
    let count ← wireCount "uploadInfos" uploads.length
    return [("uploadInfosCount", .natural count.toNat),
      ("uploadInfos", .array (uploads.map Upload.json))]
  | .startDriveVerification drive => .ok [("driveKey", .ofOctets drive.key)]
  | .endDriveVerification failures =>
    .ok [("verificationFailures", .array (failures.map VerificationFailure.json))]
  | .startFileDownload drive files => do
    let count ← wireCount "files" files.length
    return [("driveKey", .ofOctets drive.key), ("fileCount", .natural count.toNat),
      ("files", .array (files.map SizedFile.json))]
  | .endFileDownload recipient token files => do
    let count ← wireCount "files" files.length
    return [("fileRecipient", .ofOctets recipient.key), ("operationToken", .ofOctets token),
      ("fileCount", .natural count.toNat), ("files", .array (files.map SizedFile.json))]

end Payload

/-! ## Transactions -/

namespace Transaction

/-- The document of a transaction with the given members behind those of its header. -/
def wrap (header : Header) (members : List (String × Json)) : Json :=
  let transaction := Json.ofMembers (header.members ++ members)
  Json.ofMembers
    (("transaction", transaction) ::
      optionalMember "meta" (fun info => Json.ofMembers (Info.members info)) header.info)

mutual

/-- The document of a transaction; one with a list whose count does not fit has none. -/
def toJson : Transaction → Except TransactionError Json
  | .single header payload =>
    match payload.members with
    | .error e => .error e
    | .ok members => .ok (wrap header members)
  | .aggregate header inner cosignatures =>
    match toJsonList inner with
    | .error e => .error e
    | .ok transactions =>
      .ok (wrap header
        [("transactions", .array transactions),
         ("cosignatures", .array (cosignatures.map Cosignature.json))])

/-- The documents of transactions, up to the first one that has none. -/
def toJsonList : List Transaction → Except TransactionError (List Json)
  | [] => .ok []
  | tx :: rest =>
    match toJson tx with
    | .error e => .error e
    | .ok value =>
      match toJsonList rest with
      | .error e => .error e
      | .ok values => .ok (value :: values)

end

/-- What the document of an aggregate says besides its header: how many inner transactions there
are, and the cosignatures. -/
def aggregateFields : Fields (List Json × List CosignatureDocument) :=
  Prod.mk <$> .optional "transactions" Decoder.valueList []
    <*> .optional "cosignatures" (.list CosignatureDocument.decoder) []

/-- The header and the rest of a document, each with its own part of the transaction's members. -/
def envelope {α : Type} (own : Fields α) (document : Json) :
    Except TransactionError (HeaderDocument × α × Option InfoDocument) :=
  match document.get? "transaction" with
  | none => .error (.missing "transaction")
  | some (.object _) =>
    let parts : Fields ((HeaderDocument × α) × Option InfoDocument) :=
      Prod.mk <$> .required "transaction" (own.beside "a transaction" HeaderDocument.fields)
        <*> .nullable "meta" InfoDocument.decoder
    match parts.record "an envelope" .value document with
    | .error e => .error (.json e)
    | .ok ((header, rest), info) => .ok (header, rest, info)
  | some _ => .error (.malformed "transaction" .notObject)

/-- What is reported about a transaction, if anything is. -/
def infoOf : Option InfoDocument → Except TransactionError (Option Info)
  | none => .ok none
  | some document =>
    match Info.ofDocument document with
    | .error e => .error e
    | .ok info => .ok (some info)

/-- The documents of an aggregate's inner transactions. -/
def innerDocuments (document : Json) : List Json :=
  match (document.get? "transaction").bind (Json.get? "transactions") with
  | some (.array items) => items
  | _ => []

/-- Reads the document of a drive transaction, whose payload has the given fields. -/
def singleOfJson (fields : Fields PayloadDocument) (document : Json) :
    Except TransactionError Transaction := do
  let (header, payload, info) ← envelope fields document
  let info ← infoOf info
  let header ← Header.ofDocument header info
  let payload ← payload header.network
  return .single header payload

/-- Reads the document of an aggregate, with what has been made of its inner transactions. -/
def aggregateOfJson (document : Json) (inner : Unit → Except TransactionError (List Transaction)) :
    Except TransactionError Transaction := do
  let (header, (_, cosignatures), info) ← envelope aggregateFields document
  let info ← infoOf info
  let header ← Header.ofDocument header info
  let inner ← inner ()
  let cosignatures ← cosignatures.mapM (Cosignature.ofDocument header.network)
  return .aggregate header inner cosignatures

/-- Reads the document of a transaction of a given shape, with what has been made of its inner
transactions. The type is judged last. -/
def ofJsonWith (shape : Shape) (document : Json)
    (inner : Unit → Except TransactionError (List Transaction)) :
    Except TransactionError Transaction := do
  let tx ← (match Payload.fields? shape with
    | some fields => singleOfJson fields document
    | none => aggregateOfJson document inner)
  shape.check tx.type
  return tx

/-- The type that a document declares. It is looked at before anything else. -/
def declaredJsonType (document : Json) : Except TransactionError TransactionType :=
  match document.get? "transaction" with
  | none => .error (.missing "transaction")
  | some transaction =>
    match transaction.get? "type" with
    | none => .error (.missing "transaction.type")
    | some (.number (.integer n)) =>
      if n < 0 then .error (.malformed "transaction.type" .notInteger)
      else if n < (UInt16.size : Int) then TransactionType.ofCode (UInt16.ofNat n.toNat)
      else .error (.malformed "transaction.type" .exceedsType)
    | some _ => .error (.malformed "transaction.type" .notInteger)

/-- An inner transaction may not be an aggregate. -/
def checkInner (result : Except TransactionError Transaction) :
    Except TransactionError Transaction :=
  match result with
  | .error e => .error e
  | .ok tx => if tx.type.isAggregate then .error (.malformed "transactions" .nested) else .ok tx

theorem sizeOf_lt_of_lookup {name : String} {value : Json} {members : List (String × Json)}
    (h : members.lookup name = some value) : sizeOf value < sizeOf members := by
  induction members with
  | nil => simp at h
  | cons member rest ih =>
    obtain ⟨other, w⟩ := member
    rw [List.lookup_cons] at h
    split at h
    · simp only [Option.some.injEq] at h
      subst h
      simp only [List.cons.sizeOf_spec, Prod.mk.sizeOf_spec]
      omega
    · have := ih h
      simp only [List.cons.sizeOf_spec]
      omega

theorem sizeOf_lt_of_get? {name : String} {value document : Json}
    (h : document.get? name = some value) : sizeOf value < sizeOf document := by
  unfold Json.get? at h
  split at h
  · have := sizeOf_lt_of_lookup h
    simp only [Json.object.sizeOf_spec]
    omega
  · simp at h

theorem sizeOf_lt_of_mem_innerDocuments {value document : Json}
    (h : value ∈ innerDocuments document) : sizeOf value < sizeOf document := by
  unfold innerDocuments at h
  split at h
  · next items hitems =>
    obtain ⟨transaction, htx, hget⟩ := Option.bind_eq_some_iff.1 hitems
    have h1 := sizeOf_lt_of_get? htx
    have h2 := sizeOf_lt_of_get? hget
    have h3 := List.sizeOf_lt_of_mem h
    simp only [Json.array.sizeOf_spec] at h2
    omega
  · simp at h

/-- Reads the document of a transaction of whatever type it declares. -/
def ofJson (document : Json) : Except TransactionError Transaction :=
  match declaredJsonType document with
  | .error e => .error e
  | .ok type =>
    ofJsonWith type.shape document fun _ =>
      (innerDocuments document).attach.mapM fun ⟨value, _⟩ => checkInner (ofJson value)
termination_by sizeOf document
decreasing_by exact sizeOf_lt_of_mem_innerDocuments ‹_›

/-- Reads the document of a transaction of a given shape. -/
def ofJsonAs (shape : Shape) (document : Json) : Except TransactionError Transaction :=
  ofJsonWith shape document fun _ =>
    (innerDocuments document).mapM fun value => checkInner (ofJson value)

/-- Reads a list of documents, up to the first one that cannot be read. -/
def listOfJson (documents : Json) : Except TransactionError (List Transaction) :=
  match documents with
  | .array items => items.mapM ofJson
  | _ => .error (.malformed "transactions" .notArray)

/-- Reads the text of a document. -/
def ofText (text : List UInt8) : Except TransactionError Transaction :=
  match Json.parse text with
  | .error e => .error (.json e)
  | .ok document => ofJson document

end Transaction

end DriveChain
