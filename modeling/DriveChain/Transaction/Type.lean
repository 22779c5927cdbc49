import DriveChain.Octets.Hex

/-!
# Transaction types

Every transaction carries a 16-bit code for what it does. Ten types change a storage drive; the two
aggregate types hold other transactions, and their difference is only whether all cosignatures are
there when the aggregate is announced.
-/

namespace DriveChain

/-- What a transaction does, as its header says. -/
inductive TransactionType where
  | prepareDrive
  | joinToDrive
  | driveFileSystem
  | filesDeposit
  | endDrive
  | driveFilesReward
  | startDriveVerification
  | endDriveVerification
  | startFileDownload
  | endFileDownload
  | aggregateCompleted
  | aggregateBonded
deriving DecidableEq, Repr

namespace TransactionType

/-- All types, in the order of their codes, aggregates last. -/
def all : List TransactionType :=
  [.prepareDrive, .joinToDrive, .driveFileSystem, .filesDeposit, .endDrive, .driveFilesReward,
   .startDriveVerification, .endDriveVerification, .startFileDownload, .endFileDownload,
   .aggregateCompleted, .aggregateBonded]

/-- The code of a type. -/
def code : TransactionType → UInt16
  | .prepareDrive => 0x415A
  | .joinToDrive => 0x425A
  | .driveFileSystem => 0x435A
  | .filesDeposit => 0x445A
  | .endDrive => 0x455A
  | .driveFilesReward => 0x465A
  | .startDriveVerification => 0x475A
  | .endDriveVerification => 0x485A
  | .startFileDownload => 0x495A
  | .endFileDownload => 0x4A5A
  | .aggregateCompleted => 0x4141
  | .aggregateBonded => 0x4241

/-- The name under which a type is shown. -/
def name : TransactionType → String
  | .prepareDrive => "PrepareDrive"
  | .joinToDrive => "JoinToDrive"
  | .driveFileSystem => "DriveFileSystem"
  | .filesDeposit => "FilesDeposit"
  | .endDrive => "EndDrive"
  | .driveFilesReward => "DriveFilesReward"
  | .startDriveVerification => "StartDriveVerification"
  | .endDriveVerification => "EndDriveVerification"
  | .startFileDownload => "StartFileDownload"
  | .endFileDownload => "EndFileDownload"
  | .aggregateCompleted => "AggregateCompleted"
  | .aggregateBonded => "AggregateBonded"

/-- Whether transactions of the type hold other transactions. -/
def isAggregate : TransactionType → Bool
  | .aggregateCompleted | .aggregateBonded => true
  | _ => false

/-- The type with a code, if there is one. -/
def ofCode? (code : UInt16) : Option TransactionType :=
  all.find? (·.code == code)

/-- The message about a code that no type has. -/
def unknownMessage (code : UInt16) : String :=
  "unknown entity type 0x" ++ Hex.number 4 code.toNat

/-- The version number of new transactions of the type. -/
def version (t : TransactionType) : UInt32 :=
  if t.isAggregate then 2 else 1

end TransactionType

/-- The shapes that a transaction can have: one for each drive type, and one for aggregates. -/
inductive Shape where
  | prepareDrive
  | joinToDrive
  | driveFileSystem
  | filesDeposit
  | endDrive
  | driveFilesReward
  | startDriveVerification
  | endDriveVerification
  | startFileDownload
  | endFileDownload
  | aggregate
deriving DecidableEq, Repr

namespace Shape

/-- The types that a transaction of the shape may bear; the first one stands for all of them. -/
def leadingType : Shape → TransactionType
  | .prepareDrive => .prepareDrive
  | .joinToDrive => .joinToDrive
  | .driveFileSystem => .driveFileSystem
  | .filesDeposit => .filesDeposit
  | .endDrive => .endDrive
  | .driveFilesReward => .driveFilesReward
  | .startDriveVerification => .startDriveVerification
  | .endDriveVerification => .endDriveVerification
  | .startFileDownload => .startFileDownload
  | .endFileDownload => .endFileDownload
  | .aggregate => .aggregateCompleted

/-- The name of a shape, which is that of its type; the two types of aggregates share one. -/
def name : Shape → String
  | .aggregate => "Aggregate"
  | shape => shape.leadingType.name

/-- All shapes. -/
def all : List Shape :=
  [.prepareDrive, .joinToDrive, .driveFileSystem, .filesDeposit, .endDrive, .driveFilesReward,
   .startDriveVerification, .endDriveVerification, .startFileDownload, .endFileDownload,
   .aggregate]

/-- The shape with a name, if there is one. -/
def ofName? (name : String) : Option Shape :=
  all.find? (·.name == name)

end Shape

/-- The shape of the transactions that bear a type. -/
def TransactionType.shape : TransactionType → Shape
  | .prepareDrive => .prepareDrive
  | .joinToDrive => .joinToDrive
  | .driveFileSystem => .driveFileSystem
  | .filesDeposit => .filesDeposit
  | .endDrive => .endDrive
  | .driveFilesReward => .driveFilesReward
  | .startDriveVerification => .startDriveVerification
  | .endDriveVerification => .endDriveVerification
  | .startFileDownload => .startFileDownload
  | .endFileDownload => .endFileDownload
  | .aggregateCompleted | .aggregateBonded => .aggregate

end DriveChain
