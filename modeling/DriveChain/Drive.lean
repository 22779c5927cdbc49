import DriveChain.Account
import DriveChain.Page
import DriveChain.Quantity
import DriveChain.Sorted
import DriveChain.Transaction.Error

/-!
# Drives

The record of a storage drive: the contract that its owner made, what was paid under it, the files
on the drive and the replicators that keep them.
-/

namespace DriveChain

/-- How far the contract of a drive has come. -/
inductive DriveState where
  | notStarted
  | pending
  | inProgress
  | finished
deriving DecidableEq, Repr

namespace DriveState

/-- The code of a state in documents. -/
def code : DriveState → UInt8
  | .notStarted => 0
  | .pending => 1
  | .inProgress => 2
  | .finished => 3

/-- The name under which a state is shown. -/
def name : DriveState → String
  | .notStarted => "not started"
  | .pending => "pending"
  | .inProgress => "in progress"
  | .finished => "finished"

/-- The state with a code, if there is one. -/
def ofCode? (code : UInt8) : Option DriveState :=
  [notStarted, pending, inProgress, finished].find? (·.code == code)

/-- The message about a code that no state has. -/
def unknownMessage (code : UInt8) : String :=
  "unknown drive state " ++ toString code.toNat

end DriveState

/-- An amount that was paid to someone, at a height of the chain. -/
structure Payment where
  receiver : Account
  amount : Amount
  height : Height
deriving DecidableEq

/-- The payments of one billing period. -/
structure Billing where
  start : Height
  stop : Height
  payments : List Payment
deriving DecidableEq

/-- Someone who keeps the files of a drive, and between which heights. -/
structure Replicator where
  account : Account
  start : Height
  stop : Height
  index : UInt32
  /-- The files the replicator keeps without a deposit, in order. -/
  undeposited : List Hash
deriving DecidableEq

/-- A drive as a node describes it. -/
structure Drive where
  account : Account
  start : Height
  state : DriveState
  owner : Account
  root : Hash
  duration : Duration
  billingPeriod : Duration
  billingPrice : Amount
  size : StorageSize
  occupied : StorageSize
  replicas : UInt16
  minReplicators : UInt16
  percentApprovers : UInt8
  billings : List Billing
  /-- The sizes of the files, in the order of their hashes. -/
  files : List (Hash × StorageSize)
  /-- The replicators under the digits of their keys, in the order of these. -/
  replicators : List (String × Replicator)
  uploadPayments : List Payment
deriving DecidableEq

namespace Drive

/-- The bytes that are still free. -/
def free (d : Drive) : StorageSize :=
  if d.occupied ≤ d.size then d.size - d.occupied else 0

/-- Whether the contract is waiting for replicators or running. -/
def isActive (d : Drive) : Bool :=
  d.state == .pending || d.state == .inProgress

end Drive

/-- Where a page stands among all pages. -/
structure Pagination where
  totalEntries : UInt64
  pageNumber : UInt64
  pageSize : UInt64
  totalPages : UInt64
deriving DecidableEq, Repr

/-- One page of a listing, in the order in which the node gave it. -/
structure DrivePage where
  drives : List Drive
  pagination : Pagination
deriving DecidableEq

/-- Why something is not the description of a drive or of a page of drives. -/
inductive DriveError where
  | field (cause : TransactionError)
  | unknownState (code : UInt8)
  | json (cause : Json.Error)
  | entry (index : Nat) (cause : DriveError)

namespace DriveError

/-- What is said about the error. -/
def message : DriveError → String
  | .field cause => cause.message
  | .unknownState code => DriveState.unknownMessage code
  | .json cause => "drive json: " ++ cause.message
  | .entry index cause => "drive " ++ toString index ++ ": " ++ message cause

end DriveError

end DriveChain
