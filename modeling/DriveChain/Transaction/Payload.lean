import DriveChain.Transaction.Header

/-!
# Payloads

What each of the ten drive transactions says besides its header: the accounts it names, its numbers
and its lists. Three payloads name nothing but a drive.
-/

namespace DriveChain

/-- A file by its hash, with its size. -/
structure SizedFile where
  hash : Hash
  size : StorageSize
deriving DecidableEq

/-- What an owner asks of the replicators of a new drive. -/
structure DriveTerms where
  owner : Account
  duration : Duration
  billingPeriod : Duration
  billingPrice : Amount
  driveSize : StorageSize
  replicas : UInt16
  minReplicators : UInt16
  percentApprovers : UInt8
deriving DecidableEq

/-- A change of a drive's files, between two root hashes. -/
structure FileSystemChange where
  drive : Account
  newRoot : Hash
  oldRoot : Hash
  added : List SizedFile
  removed : List Hash
deriving DecidableEq

/-- How much a participant has uploaded. -/
structure Upload where
  participant : Account
  uploaded : Amount
deriving DecidableEq

/-- The blocks that a replicator failed to prove. -/
structure VerificationFailure where
  replicator : Account
  blocks : List Hash
deriving DecidableEq

/-- What one of the ten drive transactions says. -/
inductive Payload where
  | prepareDrive (terms : DriveTerms)
  | joinToDrive (drive : Account)
  | driveFileSystem (change : FileSystemChange)
  | filesDeposit (drive : Account) (files : List Hash)
  | endDrive (drive : Account)
  | driveFilesReward (uploads : List Upload)
  | startDriveVerification (drive : Account)
  | endDriveVerification (failures : List VerificationFailure)
  | startFileDownload (drive : Account) (files : List SizedFile)
  | endFileDownload (recipient : Account) (token : Hash) (files : List SizedFile)
deriving DecidableEq

/-- What turns one root hash of a change into the other. -/
def FileSystemChange.xorRoot (change : FileSystemChange) : Hash :=
  change.newRoot.xor change.oldRoot

/-- The new root hash, from the old one and what turns one into the other. -/
def recoverNewRoot (xorRoot oldRoot : Hash) : Hash :=
  xorRoot.xor oldRoot

namespace VerificationFailure

/-- The bytes that a failure takes. -/
def size (failure : VerificationFailure) : Nat :=
  Layout.failure + Layout.file * failure.blocks.length

/-- The bytes that failures take. -/
def listSize : List VerificationFailure → Nat
  | [] => 0
  | failure :: rest => failure.size + listSize rest

end VerificationFailure

namespace Payload

/-- What a payload says, as a shape. -/
def shape : Payload → Shape
  | .prepareDrive _ => .prepareDrive
  | .joinToDrive _ => .joinToDrive
  | .driveFileSystem _ => .driveFileSystem
  | .filesDeposit _ _ => .filesDeposit
  | .endDrive _ => .endDrive
  | .driveFilesReward _ => .driveFilesReward
  | .startDriveVerification _ => .startDriveVerification
  | .endDriveVerification _ => .endDriveVerification
  | .startFileDownload _ _ => .startFileDownload
  | .endFileDownload _ _ _ => .endFileDownload

/-- The accounts that a payload names, in order. -/
def accounts : Payload → List Account
  | .prepareDrive terms => [terms.owner]
  | .joinToDrive drive => [drive]
  | .driveFileSystem change => [change.drive]
  | .filesDeposit drive _ => [drive]
  | .endDrive drive => [drive]
  | .driveFilesReward uploads => uploads.map (·.participant)
  | .startDriveVerification drive => [drive]
  | .endDriveVerification failures => failures.map (·.replicator)
  | .startFileDownload drive _ => [drive]
  | .endFileDownload recipient _ _ => [recipient]

/-- The bytes of a transaction with this payload, its header included. -/
def size : Payload → Nat
  | .prepareDrive _ => Layout.prepareDrive
  | .joinToDrive _ => Layout.joinToDrive
  | .driveFileSystem change =>
    Layout.driveFileSystem + Layout.sizedFile * change.added.length +
      Layout.file * change.removed.length
  | .filesDeposit _ files => Layout.filesDeposit + Layout.file * files.length
  | .endDrive _ => Layout.endDrive
  | .driveFilesReward uploads => Layout.driveFilesReward + Layout.upload * uploads.length
  | .startDriveVerification _ => Layout.startDriveVerification
  | .endDriveVerification failures =>
    Layout.endDriveVerification + VerificationFailure.listSize failures
  | .startFileDownload _ files => Layout.startFileDownload + Layout.sizedFile * files.length
  | .endFileDownload _ _ files => Layout.endFileDownload + Layout.sizedFile * files.length

/-! ## Rules for new payloads -/

/-- A payload, if none of the rules in the list is broken; the first broken one is reported. -/
def ensure (rules : List (Bool × Violation)) (payload : Payload) :
    Except TransactionError Payload :=
  match rules.find? (fun rule => !rule.1) with
  | some rule => .error (.invalid rule.2)
  | none => .ok payload

/-- A payload that keeps the rules for new ones. Payloads that are read keep whatever they say. -/
def validated : Payload → Except TransactionError Payload
  | .prepareDrive terms =>
    ensure
      [(0 < terms.duration, .noDuration),
       (0 < terms.billingPeriod, .noBillingPeriod),
       (terms.billingPeriod ≤ terms.duration, .longBillingPeriod),
       (0 < terms.driveSize, .noDriveSize),
       (0 < terms.replicas, .noReplicas),
       (0 < terms.minReplicators, .noMinReplicators),
       (terms.minReplicators ≤ terms.replicas, .manyMinReplicators),
       (terms.percentApprovers ≤ 100, .manyApprovers)]
      (.prepareDrive terms)
  | .driveFileSystem change =>
    ensure
      [(!change.added.isEmpty || !change.removed.isEmpty || change.newRoot ≠ change.oldRoot,
        .noChange)]
      (.driveFileSystem change)
  | .filesDeposit drive files =>
    ensure [(!files.isEmpty, .noFiles)] (.filesDeposit drive files)
  | .driveFilesReward uploads =>
    ensure [(!uploads.isEmpty, .noUploads)] (.driveFilesReward uploads)
  | .startFileDownload drive files =>
    ensure [(!files.isEmpty, .noDownloads)] (.startFileDownload drive files)
  | .endFileDownload recipient token files =>
    ensure [(!files.isEmpty, .noDownloads), (!token.isZero, .noToken)]
      (.endFileDownload recipient token files)
  | payload => .ok payload

end Payload

end DriveChain
