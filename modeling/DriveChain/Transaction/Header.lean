import DriveChain.Account
import DriveChain.Transaction.Cursor
import DriveChain.Transaction.Deadline
import DriveChain.Transaction.Layout

/-!
# Headers

What every transaction has: its network, version and type, its deadline and fee, who signed it, and,
once a node has reported it, where it is on the chain. On the wire the network is the top byte of
the version, and an absent signer or signature is all zeros.
-/

namespace DriveChain

/-- What a node reports about a transaction. -/
structure Info where
  height : Height
  index : UInt32
  id : String
  hash : Option Hash
  merkleComponentHash : Option Hash
  aggregateHash : Option Hash
  aggregateId : Option String
deriving DecidableEq

/-- Whether the transaction is part of an aggregate. -/
def Info.isEmbedded (info : Info) : Bool :=
  info.aggregateHash.isSome || info.aggregateId.isSome

/-- What every transaction has. -/
structure Header where
  network : Network
  version : UInt32
  type : TransactionType
  deadline : Deadline
  maxFee : Amount
  signer : Option Account
  signature : Option Signature
  info : Option Info
deriving DecidableEq

/-- The network in the top byte and the version in the other three. -/
def packVersion (network : Network) (version : UInt32) : UInt32 :=
  UInt32.ofNat (network.byte.toNat * 0x1000000 + version.toNat % 0x1000000)

/-- The version without its top byte. -/
def unpackVersion (packed : UInt32) : UInt32 :=
  UInt32.ofNat (packed.toNat % 0x1000000)

namespace Header

/-- The header of a new transaction. -/
def new (type : TransactionType) (network : Network) (deadline : Deadline) : Header where
  network := network
  version := type.version
  type := type
  deadline := deadline
  maxFee := 0
  signer := none
  signature := none
  info := none

/-- The version as it is written, with the network in its top byte. -/
def packedVersion (h : Header) : UInt32 :=
  packVersion h.network h.version

/-- Whether there is a signature. -/
def isSigned (h : Header) : Bool :=
  h.signature.isSome

/-- Whether the transaction is in a block. -/
def isConfirmed (h : Header) : Bool :=
  match h.info with
  | some info => 0 < info.height
  | none => false

/-- The key of the signer as it is written; zeros stand for nobody. -/
def signerKey (h : Header) : Key :=
  match h.signer with
  | some account => account.key
  | none => .zero 32

/-- The signature as it is written; zeros stand for none. -/
def signatureOctets (h : Header) : Signature :=
  h.signature.getD (.zero 64)

/-- The first four bytes of a transaction. -/
def sizeBytes (size : Nat) : Except TransactionError (List UInt8) :=
  if size < UInt32.size then .ok (bytes32 (UInt32.ofNat size))
  else .error (.invalid (.largeTransaction size))

/-- The signer's key, the packed version and the type, which both forms of a header have. -/
def identityBytes (h : Header) : List UInt8 :=
  h.signerKey.bytes ++ bytes32 h.packedVersion ++ bytes16 h.type.code

/-- The header of a transaction that takes `size` bytes in all. -/
def bytes (h : Header) (size : Nat) : Except TransactionError (List UInt8) :=
  match sizeBytes size with
  | .error e => .error e
  | .ok front =>
    .ok (front ++ h.signatureOctets.bytes ++ h.identityBytes ++ bytes64 h.maxFee ++
      bytes64 h.deadline)

/-- The header of an embedded transaction that takes `size` bytes in all. -/
def embeddedBytes (h : Header) (size : Nat) : Except TransactionError (List UInt8) :=
  match sizeBytes size with
  | .error e => .error e
  | .ok front => .ok (front ++ h.identityBytes)

/-- The announced size has to be the number of bytes there are. -/
def readSize (available : Nat) : Reader Unit := do
  let announced ← Reader.word32
  if announced.toNat = available then return ()
  else throw (.sizeMismatch announced.toNat available)

/-- The signer, the network, the version and the type. An unknown type is reported before an unknown
network. -/
def readIdentity : Reader (Option Account × Network × UInt32 × TransactionType) := do
  let key ← Reader.octets 32
  let packed ← Reader.word32
  let code ← Reader.word16
  match TransactionType.ofCode code with
  | .error e => throw e
  | .ok type =>
    match Network.ofPacked packed with
    | .error e => throw (.network e)
    | .ok network =>
      return (key.nonzero?.map (Account.ofKey · network), network, unpackVersion packed, type)

/-- Reads the header of a transaction that takes all the available bytes. -/
def read (available : Nat) : Reader Header := do
  readSize available
  let signature ← Reader.octets 64
  let (signer, network, version, type) ← readIdentity
  let maxFee ← Reader.word64
  let deadline ← Reader.word64
  return {
    network, version, type, deadline, maxFee, signer, signature := signature.nonzero?, info := none }

/-- An embedded transaction has no fee, deadline or signature of its own. -/
def readEmbedded (available : Nat) : Reader Header := do
  readSize available
  let (signer, network, version, type) ← readIdentity
  return {
    network, version, type, deadline := 0, maxFee := 0, signer, signature := none, info := none }

end Header

end DriveChain
