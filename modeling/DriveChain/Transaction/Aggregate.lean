import DriveChain.Transaction.Basic

/-!
# Building aggregates

A new aggregate holds at least one transaction, and each of them has a signer and says that it is no
aggregate. Transactions that are added later are held to the same rules.
-/

namespace DriveChain

namespace Transaction

/-- The rules for the transaction at an index of an aggregate. -/
def checkPart (index : Nat) (tx : Transaction) : Except TransactionError Unit :=
  if tx.type.isAggregate then .error (.invalid (.innerAggregate index))
  else if tx.header.signer.isNone then .error (.invalid (.innerUnsigned index))
  else .ok ()

/-- The rules for transactions from an index on; the first one that breaks them is reported. -/
def checkParts : (index : Nat) → List Transaction → Except TransactionError Unit
  | _, [] => .ok ()
  | index, tx :: rest =>
    match checkPart index tx with
    | .error e => .error e
    | .ok () => checkParts (index + 1) rest

/-- A new aggregate of the given type; it may not be empty, and all of it has to keep the
rules. -/
def newAggregate (type : TransactionType) (deadline : Deadline) (inner : List Transaction)
    (network : Network) : Except TransactionError Transaction :=
  if inner.isEmpty then .error (.invalid .noInner)
  else
    match checkParts 0 inner with
    | .error e => .error e
    | .ok () => .ok (.aggregate (.new type network deadline) inner [])

/-- A new aggregate whose cosignatures are all attached before it is announced. -/
def newCompleted (deadline : Deadline) (inner : List Transaction) (network : Network) :
    Except TransactionError Transaction :=
  newAggregate .aggregateCompleted deadline inner network

/-- A new aggregate whose cosignatures are collected after it is announced. -/
def newBonded (deadline : Deadline) (inner : List Transaction) (network : Network) :
    Except TransactionError Transaction :=
  newAggregate .aggregateBonded deadline inner network

/-- Adds a transaction behind those that an aggregate holds. -/
def push (tx part : Transaction) : Except TransactionError Transaction :=
  match tx with
  | .aggregate header inner cosignatures =>
    match checkPart inner.length part with
    | .error e => .error e
    | .ok () => .ok (.aggregate header (inner ++ [part]) cosignatures)
  | .single header _ => .error (.typeMismatch .aggregateCompleted header.type)

/-- Replaces the cosignatures of an aggregate. -/
def withCosignatures (tx : Transaction) (cosignatures : List Cosignature) : Transaction :=
  match tx with
  | .aggregate header inner _ => .aggregate header inner cosignatures
  | .single header payload => .single header payload

/-- Whether cosignatures are collected after the aggregate is announced, by its type. -/
def isBonded (tx : Transaction) : Bool :=
  tx.type == .aggregateBonded

end Transaction

end DriveChain
