import DriveChain.Transaction.Basic

/-!
# The byte form of transactions

A transaction is its header, then its payload. Lists of files, actions and uploads are preceded by
their counts; verification failures are not counted but carry their own sizes, and end where the
transaction ends. An aggregate gives the size of its inner transactions, then these, each in embedded
form, then the cosignatures up to the end.
-/

namespace DriveChain

/-! ## Writing -/

namespace SizedFile

/-- A file is written as its hash, then its size. -/
def bytes (file : SizedFile) : List UInt8 :=
  file.hash.bytes ++ bytes64 file.size

/-- Reads a file. -/
def read : Reader SizedFile := do
  let hash ← Reader.octets 32
  let size ← Reader.word64
  return ⟨hash, size⟩

end SizedFile

namespace Upload

/-- An upload is written as the participant's key, then the amount. -/
def bytes (upload : Upload) : List UInt8 :=
  upload.participant.key.bytes ++ bytes64 upload.uploaded

/-- Reads an upload; the participant is derived on the network. -/
def read (network : Network) : Reader Upload := do
  let key ← Reader.octets 32
  let uploaded ← Reader.word64
  return ⟨.ofKey key network, uploaded⟩

end Upload

namespace VerificationFailure

/-- A failure is written as its own size, the replicator's key and the hashes of the blocks. -/
def bytes (failure : VerificationFailure) : Except TransactionError (List UInt8) :=
  if failure.size < UInt32.size then
    .ok (bytes32 (UInt32.ofNat failure.size) ++ failure.replicator.key.bytes ++
      failure.blocks.flatMap Octets.bytes)
  else .error (.invalid .largeFailure)

/-- Failures are written one after the other, without a count. -/
def listBytes : List VerificationFailure → Except TransactionError (List UInt8)
  | [] => .ok []
  | failure :: rest =>
    match failure.bytes with
    | .error e => .error e
    | .ok front =>
      match listBytes rest with
      | .error e => .error e
      | .ok back => .ok (front ++ back)

/-- Reads one failure, which has to announce a whole number of hashes. -/
def read (network : Network) : Reader VerificationFailure := do
  let size ← Reader.word32
  let size := size.toNat
  if size < Layout.failure ∨ (size - Layout.failure) % Layout.file ≠ 0 then
    throw (.malformed "verificationFailures" (.failureSize size))
  else
    let key ← Reader.octets 32
    let blocks ← Reader.times ((size - Layout.failure) / Layout.file) (Reader.octets 32)
    return ⟨.ofKey key network, blocks⟩

end VerificationFailure

namespace Cosignature

/-- A cosignature is written as the signer's key, then the signature. -/
def bytes (c : Cosignature) : List UInt8 :=
  c.signer.key.bytes ++ c.signature.bytes

/-- Reads a cosignature; the signer is derived on the network. -/
def read (network : Network) : Reader Cosignature := do
  let key ← Reader.octets 32
  let signature ← Reader.octets 64
  return ⟨.ofKey key network, signature⟩

end Cosignature

namespace Payload

/-- A counted list of sized files. -/
def filesBytes (files : List SizedFile) : Except TransactionError (List UInt8) :=
  match wireCount "files" files.length with
  | .error e => .error e
  | .ok count => .ok (bytes16 count ++ files.flatMap SizedFile.bytes)

/-- The bytes of a payload behind the header; counts have to fit. -/
def bytes : Payload → Except TransactionError (List UInt8)
  | .prepareDrive terms =>
    .ok (terms.owner.key.bytes ++ bytes64 terms.duration ++ bytes64 terms.billingPeriod ++
      bytes64 terms.billingPrice ++ bytes64 terms.driveSize ++ bytes16 terms.replicas ++
      bytes16 terms.minReplicators ++ [terms.percentApprovers])
  | .joinToDrive drive => .ok drive.key.bytes
  | .driveFileSystem change =>
    match wireCount "addActions" change.added.length with
    | .error e => .error e
    | .ok adds =>
      match wireCount "removeActions" change.removed.length with
      | .error e => .error e
      | .ok removes =>
        .ok (change.drive.key.bytes ++ change.newRoot.bytes ++ change.xorRoot.bytes ++
          bytes16 adds ++ bytes16 removes ++ change.added.flatMap SizedFile.bytes ++
          change.removed.flatMap Octets.bytes)
  | .filesDeposit drive files =>
    match wireCount "files" files.length with
    | .error e => .error e
    | .ok count => .ok (drive.key.bytes ++ bytes16 count ++ files.flatMap Octets.bytes)
  | .endDrive drive => .ok drive.key.bytes
  | .driveFilesReward uploads =>
    match wireCount "uploadInfos" uploads.length with
    | .error e => .error e
    | .ok count => .ok (bytes16 count ++ uploads.flatMap Upload.bytes)
  | .startDriveVerification drive => .ok drive.key.bytes
  | .endDriveVerification failures => VerificationFailure.listBytes failures
  | .startFileDownload drive files =>
    match filesBytes files with
    | .error e => .error e
    | .ok back => .ok (drive.key.bytes ++ back)
  | .endFileDownload recipient token files =>
    match filesBytes files with
    | .error e => .error e
    | .ok back => .ok (recipient.key.bytes ++ token.bytes ++ back)

end Payload

namespace Transaction

mutual

/-- The bytes behind the header. -/
def payloadBytes : Transaction → Except TransactionError (List UInt8)
  | .single _ payload => payload.bytes
  | .aggregate _ inner cosignatures =>
    if innerSize inner < UInt32.size then
      match innerBytes inner with
      | .error e => .error e
      | .ok body =>
        .ok (bytes32 (UInt32.ofNat (innerSize inner)) ++ body ++
          cosignatures.flatMap Cosignature.bytes)
    else .error (.invalid .largeAggregate)

/-- The bytes of inner transactions, each in embedded form. -/
def innerBytes : List Transaction → Except TransactionError (List UInt8)
  | [] => .ok []
  | tx :: rest =>
    match tx.header.embeddedBytes (tx.size - Layout.embeddedReduction) with
    | .error e => .error e
    | .ok front =>
      match payloadBytes tx with
      | .error e => .error e
      | .ok body =>
        match innerBytes rest with
        | .error e => .error e
        | .ok back => .ok (front ++ body ++ back)

end

/-- The byte form, which is as long as it announces. -/
def toBytes (tx : Transaction) : Except TransactionError (List UInt8) :=
  match tx.header.bytes tx.size with
  | .error e => .error e
  | .ok front =>
    match tx.payloadBytes with
    | .error e => .error e
    | .ok body => finish tx.size (front ++ body)

/-- The byte form inside an aggregate. -/
def toEmbeddedBytes (tx : Transaction) : Except TransactionError (List UInt8) :=
  let size := tx.size - Layout.embeddedReduction
  match tx.header.embeddedBytes size with
  | .error e => .error e
  | .ok front =>
    match tx.payloadBytes with
    | .error e => .error e
    | .ok body => finish size (front ++ body)

/-- What a signature is made over, the hash of the network's first block apart. -/
def signableBytes (tx : Transaction) : Except TransactionError (List UInt8) :=
  match tx.toBytes with
  | .error e => .error e
  | .ok bytes => .ok (bytes.drop Layout.signableOffset)

end Transaction

/-! ## Reading -/

namespace Payload

/-- Reads the payload of a shape; aggregates have none. -/
def read (network : Network) : Shape → Reader Payload
  | .prepareDrive => do
    let owner ← Reader.octets 32
    let duration ← Reader.word64
    let billingPeriod ← Reader.word64
    let billingPrice ← Reader.word64
    let driveSize ← Reader.word64
    let replicas ← Reader.word16
    let minReplicators ← Reader.word16
    let percentApprovers ← Reader.word8
    return .prepareDrive {
      owner := .ofKey owner network
      duration, billingPeriod, billingPrice, driveSize, replicas, minReplicators,
      percentApprovers }
  | .joinToDrive => do
    let drive ← Reader.octets 32
    return .joinToDrive (.ofKey drive network)
  | .driveFileSystem => do
    let drive ← Reader.octets 32
    let newRoot ← Reader.octets 32
    let xorRoot ← Reader.octets 32
    let adds ← Reader.word16
    let removes ← Reader.word16
    let added ← Reader.times adds.toNat SizedFile.read
    let removed ← Reader.times removes.toNat (Reader.octets 32)
    return .driveFileSystem {
      drive := .ofKey drive network, newRoot, oldRoot := xorRoot.xor newRoot, added, removed }
  | .filesDeposit => do
    let drive ← Reader.octets 32
    let count ← Reader.word16
    let files ← Reader.times count.toNat (Reader.octets 32)
    return .filesDeposit (.ofKey drive network) files
  | .endDrive => do
    let drive ← Reader.octets 32
    return .endDrive (.ofKey drive network)
  | .driveFilesReward => do
    let count ← Reader.word16
    let uploads ← Reader.times count.toNat (Upload.read network)
    return .driveFilesReward uploads
  | .startDriveVerification => do
    let drive ← Reader.octets 32
    return .startDriveVerification (.ofKey drive network)
  | .endDriveVerification => do
    let failures ← Reader.many (VerificationFailure.read network)
    return .endDriveVerification failures
  | .startFileDownload => do
    let drive ← Reader.octets 32
    let count ← Reader.word16
    let files ← Reader.times count.toNat SizedFile.read
    return .startFileDownload (.ofKey drive network) files
  | .endFileDownload => do
    let recipient ← Reader.octets 32
    let token ← Reader.octets 32
    let count ← Reader.word16
    let files ← Reader.times count.toNat SizedFile.read
    return .endFileDownload (.ofKey recipient network) token files
  | .aggregate => throw (.malformed "transactions" .nested)

end Payload

namespace Transaction

/-- Reads one embedded transaction, which ends where it announces to end. -/
def readInner : Reader Transaction := do
  let size ← Reader.peek32
  let cursor ← Reader.split size.toNat
  Reader.on cursor do
    let header ← Header.readEmbedded size.toNat
    let payload ← Payload.read header.network header.type.shape
    Reader.expectEnd
    return .single header payload

/-- Reads cosignatures up to the end. -/
def readCosignatures (network : Network) : Reader (List Cosignature) := do
  let c ← get
  if c.remaining % Layout.cosignature ≠ 0 then
    throw (.malformed "cosignatures" (.unevenCosignatures c.remaining))
  else Reader.many (Cosignature.read network)

/-- Reads what follows the header of a transaction of the given shape. -/
def readBody (header : Header) : Shape → Reader Transaction
  | .aggregate => do
    let size ← Reader.word32
    let cursor ← Reader.split size.toNat
    let inner ← Reader.on cursor (Reader.many readInner)
    let cosignatures ← readCosignatures header.network
    return .aggregate header inner cosignatures
  | shape => do
    let payload ← Payload.read header.network shape
    return .single header payload

/-- Reads a transaction that takes up all the bytes and bears a type of the given shape. -/
def readAs (shape : Shape) (available : Nat) : Reader Transaction := do
  let header ← Header.read available
  match shape.check header.type with
  | .error e => throw e
  | .ok () =>
    let tx ← readBody header shape
    Reader.expectEnd
    return tx

/-- Reads a transaction of a given shape. -/
def ofBytesAs (shape : Shape) (bytes : List UInt8) : Except TransactionError Transaction :=
  Reader.run (readAs shape bytes.length) bytes

/-- The type that the bytes of a transaction declare. It is looked at before anything else. -/
def declaredType (bytes : List UInt8) : Except TransactionError TransactionType :=
  if bytes.length < Layout.typeOffset + 2 then
    .error (.truncated 0 (Layout.typeOffset + 2) bytes.length)
  else
    TransactionType.ofCode
      (UInt16.ofNat (LittleEndian.value ((bytes.drop Layout.typeOffset).take 2)))

/-- Reads a transaction of whatever type it declares. -/
def ofBytes (bytes : List UInt8) : Except TransactionError Transaction :=
  match declaredType bytes with
  | .error e => .error e
  | .ok type => ofBytesAs type.shape bytes

end Transaction

end DriveChain
