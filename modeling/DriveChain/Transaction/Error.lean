import DriveChain.Json.Error
import DriveChain.Network
import DriveChain.Transaction.Type

/-!
# What can be wrong with a transaction
-/

namespace DriveChain

/-- A rule that a transaction breaks. -/
inductive Violation where
  | noDuration
  | noBillingPeriod
  | longBillingPeriod
  | noDriveSize
  | noReplicas
  | noMinReplicators
  | manyMinReplicators
  | manyApprovers
  | noChange
  | noFiles
  | noUploads
  | noDownloads
  | noToken
  | noInner
  | innerAggregate (index : Nat)
  | innerUnsigned (index : Nat)
  | manyEntries (field : String) (count : Nat)
  | largeTransaction (size : Nat)
  | largeFailure
  | largeAggregate
  | largeSigned
deriving DecidableEq, Repr

namespace Violation

/-- What is said about the rule. -/
def message : Violation → String
  | .noDuration => "duration must be > 0"
  | .noBillingPeriod => "billing period must be > 0"
  | .longBillingPeriod => "billing period must not exceed the drive duration"
  | .noDriveSize => "drive size must be > 0"
  | .noReplicas => "replicas must be > 0"
  | .noMinReplicators => "min replicators must be > 0"
  | .manyMinReplicators => "min replicators must not exceed replicas"
  | .manyApprovers => "percent approvers must be <= 100"
  | .noChange => "file system change has no actions and keeps the same root hash"
  | .noFiles => "files deposit needs at least one file"
  | .noUploads => "files reward needs at least one upload info"
  | .noDownloads => "download needs at least one file"
  | .noToken => "operation token must be set"
  | .noInner => "aggregate needs at least one inner transaction"
  | .innerAggregate index => "inner transaction " ++ toString index ++ " is an aggregate"
  | .innerUnsigned index => "inner transaction " ++ toString index ++ " has no signer"
  | .manyEntries field count =>
    field ++ " has " ++ toString count ++ " entries, at most 65535 fit"
  | .largeTransaction size => toString size ++ " bytes exceed the size slot"
  | .largeFailure => "verification failure too large"
  | .largeAggregate => "aggregate payload too large"
  | .largeSigned => "signed aggregate too large"

end Violation

/-- What is wrong with a field that is there. -/
inductive FieldFault where
  | hex (cause : HexError)
  | notObject
  | notArray
  | notInteger
  | exceedsType
  | count (announced found : Nat)
  | nested
  | failureSize (size : Nat)
  | unevenCosignatures (size : Nat)
deriving DecidableEq, Repr

namespace FieldFault

/-- What is said about the fault. -/
def message : FieldFault → String
  | .hex cause => cause.message
  | .notObject => "not an object"
  | .notArray => "not an array"
  | .notInteger => "not an integer"
  | .exceedsType => "exceeds u16"
  | .count announced found =>
    "announces " ++ toString announced ++ " entries, found " ++ toString found
  | .nested => "aggregates cannot nest"
  | .failureSize size => "failure size " ++ toString size ++ " is not 36 + 32 * n"
  | .unevenCosignatures size =>
    toString size ++ " bytes is not a whole number of cosignatures"

end FieldFault

/-- What is wrong with a transaction, or with what should be one. -/
inductive TransactionError where
  | invalid (violation : Violation)
  | malformed (field : String) (fault : FieldFault)
  | missing (field : String)
  | unsupportedType (code : UInt16)
  | typeMismatch (expected actual : TransactionType)
  | sizeMismatch (announced found : Nat)
  | truncated (offset needed available : Nat)
  | trailing (offset count : Nat)
  | network (cause : NetworkError)
  | json (cause : Json.Error)
deriving DecidableEq, Repr

namespace TransactionError

/-- What is said about the error. -/
def message : TransactionError → String
  | .invalid violation => "validation failed: " ++ violation.message
  | .malformed field fault => "malformed field `" ++ field ++ "`: " ++ fault.message
  | .missing field => "missing field `" ++ field ++ "`"
  | .unsupportedType code => "unsupported transaction type 0x" ++ Hex.number 4 code.toNat
  | .typeMismatch expected actual =>
    "expected a " ++ expected.name ++ " transaction, found " ++ actual.name
  | .sizeMismatch announced found =>
    "size mismatch: announced " ++ toString announced ++ " bytes, found " ++ toString found
  | .truncated offset needed available =>
    "truncated at offset " ++ toString offset ++ ": needed " ++ toString needed ++ " bytes, " ++
      toString available ++ " available"
  | .trailing offset count =>
    toString count ++ " trailing bytes at offset " ++ toString offset
  | .network cause => cause.message
  | .json cause => "json decode failed: " ++ cause.message

end TransactionError

/-- The type with a code. -/
def TransactionType.ofCode (code : UInt16) : Except TransactionError TransactionType :=
  match ofCode? code with
  | some type => .ok type
  | none => .error (.unsupportedType code)

/-- The transactions of a shape bear one of its types. -/
def Shape.check (shape : Shape) (actual : TransactionType) : Except TransactionError Unit :=
  if actual.shape = shape then .ok () else .error (.typeMismatch shape.leadingType actual)

end DriveChain
