import DriveChain.Transaction.Bytes

/-!
# Signing

A signature is made over the hash of the network's first block and the bytes of a transaction from
its version on; it and the signer's key are then put in their places. The hash of a transaction is
taken of the first half of its signature, the key, the first block's hash and the signed bytes, so
that neither the size nor the second half of the signature matters. Those who agree to an aggregate
sign its hash, and their keys and signatures are put behind it.
-/

namespace DriveChain

/-- Someone who can sign: a key and what the holder of the private half makes of a message. -/
structure Signer where
  key : Key
  sign : List UInt8 → Signature

/-- A transaction as it is announced. -/
structure SignedTransaction where
  type : TransactionType
  payload : List UInt8
  hash : Hash
deriving DecidableEq

/-- The payload in the digits in which it is announced. -/
def SignedTransaction.text (signed : SignedTransaction) : String :=
  Hex.encode signed.payload

/-- A cosignature as it is announced on its own. -/
structure SignedCosignature where
  parent : Hash
  signature : Signature
  signer : Key
deriving DecidableEq

namespace Signing

/-- The bytes that the hash of a transaction is taken of. -/
def hashInput (payload : List UInt8) (generation : Hash) : List UInt8 :=
  (payload.drop Layout.signatureOffset).take 32 ++ (payload.drop Layout.signerOffset).take 32 ++
    generation.bytes ++ payload.drop Layout.signableOffset

/-- The hash of a transaction, from the bytes it is announced in. -/
def transactionHash (payload : List UInt8) (generation : Hash) : Except TransactionError Hash :=
  if payload.length < Layout.signableOffset then
    .error (.truncated 0 Layout.signableOffset payload.length)
  else .ok (sha3 (hashInput payload generation))

/-- Puts a signature and its signer's key into the bytes of a transaction. -/
def signPayload (payload : List UInt8) (signer : Signer) (generation : Hash) : List UInt8 :=
  let signed := payload.drop Layout.signableOffset
  payload.take Layout.signatureOffset ++ (signer.sign (generation.bytes ++ signed)).bytes ++
    signer.key.bytes ++ signed

/-- Signs a transaction and takes its hash. -/
def sign (tx : Transaction) (signer : Signer) (generation : Hash) :
    Except TransactionError SignedTransaction :=
  match tx.toBytes with
  | .error e => .error e
  | .ok bytes =>
    let payload := signPayload bytes signer generation
    match transactionHash payload generation with
    | .error e => .error e
    | .ok hash => .ok ⟨tx.type, payload, hash⟩

/-- Agrees to the aggregate with a hash. -/
def cosign (parent : Hash) (signer : Signer) : SignedCosignature :=
  ⟨parent, signer.sign parent.bytes, signer.key⟩

/-- What is put behind an aggregate for a cosignature. -/
def SignedCosignature.bytes (c : SignedCosignature) : List UInt8 :=
  c.signer.bytes ++ c.signature.bytes

/-- Signs an aggregate and attaches cosignatures. The announced size is written anew. -/
def signWith (tx : Transaction) (signer : Signer) (cosigners : List Signer) (generation : Hash) :
    Except TransactionError SignedTransaction :=
  if tx.type.isAggregate then
    match sign tx signer generation with
    | .error e => .error e
    | .ok signed =>
      let payload := signed.payload ++
        cosigners.flatMap fun cosigner => SignedCosignature.bytes (cosign signed.hash cosigner)
      if payload.length < UInt32.size then
        .ok { signed with
          payload := bytes32 (UInt32.ofNat payload.length) ++ payload.drop Layout.signatureOffset }
      else .error (.invalid .largeSigned)
  else .error (.typeMismatch .aggregateCompleted tx.type)

end Signing

end DriveChain
