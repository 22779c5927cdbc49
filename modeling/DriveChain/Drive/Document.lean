import DriveChain.Drive
import DriveChain.Transaction.Document

/-!
# The JSON form of drives

Drives are read from a text while it is being parsed. First all values have to have the right
shapes, which makes a document; then the document is taken at its meaning on a network, lists before
single fields. Of files and replicators that are listed twice the last one counts.
-/

namespace DriveChain

open Json (Decoder Fields)

/-! ## Documents -/

/-- The document of a payment. -/
structure PaymentDocument where
  receiver : String
  amount : UInt64
  height : UInt64
deriving DecidableEq

/-- The document of a billing period. -/
structure BillingDocument where
  start : UInt64
  stop : UInt64
  payments : List PaymentDocument
deriving DecidableEq

/-- A file by its hash, as a text, and its size. -/
structure FileDocument where
  hash : String
  size : UInt64
deriving DecidableEq

/-- The document of a replicator, its key and its files as texts. -/
structure ReplicatorDocument where
  key : String
  start : UInt64
  stop : UInt64
  index : UInt32
  undeposited : List String
deriving DecidableEq

/-- The document of a drive: what it says before any text or code is taken at its meaning. -/
structure DriveDocument where
  key : String
  start : UInt64
  state : UInt8
  owner : String
  root : String
  duration : UInt64
  billingPeriod : UInt64
  billingPrice : UInt64
  size : UInt64
  occupied : UInt64
  replicas : UInt16
  minReplicators : UInt16
  percentApprovers : UInt8
  billings : List BillingDocument
  files : List FileDocument
  replicators : List ReplicatorDocument
  uploadPayments : List PaymentDocument
deriving DecidableEq

namespace PaymentDocument

/-- A payment; all its fields are required. -/
def decoder : Decoder PaymentDocument :=
  Fields.record "a payment" <|
    PaymentDocument.mk <$> .required "receiver" Decoder.text <*> .required "amount" Decoder.pair
      <*> .required "height" Decoder.pair

end PaymentDocument

namespace BillingDocument

/-- A billing period, which may be without payments. -/
def decoder : Decoder BillingDocument :=
  Fields.record "a billing period" <|
    BillingDocument.mk <$> .required "start" Decoder.pair <*> .required "end" Decoder.pair
      <*> .optional "payments" (.list PaymentDocument.decoder) []

end BillingDocument

namespace FileDocument

/-- A file; both its fields are required. -/
def decoder : Decoder FileDocument :=
  Fields.record "a file" <|
    FileDocument.mk <$> .required "fileHash" Decoder.text <*> .required "size" Decoder.pair

end FileDocument

namespace ReplicatorDocument

/-- A replicator, which may be without an index and without files. -/
def decoder : Decoder ReplicatorDocument :=
  Fields.record "a replicator" <|
    ReplicatorDocument.mk <$> .required "replicator" Decoder.text <*> .required "start" Decoder.pair
      <*> .required "end" Decoder.pair <*> .optional "index" Decoder.word32 0
      <*> .optional "activeFilesWithoutDeposit" (.list Decoder.text) []

end ReplicatorDocument

namespace DriveDocument

/-- A drive, whose lists and occupied space may be missing. -/
def decoder : Decoder DriveDocument :=
  Fields.record "a drive" <|
    DriveDocument.mk <$> .required "multisig" Decoder.text <*> .required "start" Decoder.pair
      <*> .required "state" Decoder.word8 <*> .required "owner" Decoder.text
      <*> .required "rootHash" Decoder.text <*> .required "duration" Decoder.pair
      <*> .required "billingPeriod" Decoder.pair <*> .required "billingPrice" Decoder.pair
      <*> .required "size" Decoder.pair <*> .optional "occupiedSpace" Decoder.pair 0
      <*> .required "replicas" Decoder.word16 <*> .required "minReplicators" Decoder.word16
      <*> .required "percentApprovers" Decoder.word8
      <*> .optional "billingHistory" (.list BillingDocument.decoder) []
      <*> .optional "files" (.list FileDocument.decoder) []
      <*> .optional "replicators" (.list ReplicatorDocument.decoder) []
      <*> .optional "uploadPayments" (.list PaymentDocument.decoder) []

/-- The document of one drive stands alone under a name. -/
def envelopeDecoder : Decoder DriveDocument :=
  Fields.record "the document of a drive" (id <$> .required "drive" decoder)

end DriveDocument

/-! ## Their meaning on a network -/

/-- A key in a document about a drive. -/
def driveAccount (network : Network) (field text : String) : Except DriveError Account :=
  match Account.ofField field text network with
  | .error e => .error (.field e)
  | .ok account => .ok account

/-- A hash in a document about a drive. -/
def driveHash (field text : String) : Except DriveError Hash :=
  match Octets.ofField 32 field text with
  | .error e => .error (.field e)
  | .ok hash => .ok hash

/-- Whether the first of two octet strings comes before the second. -/
def Octets.before {n : Nat} (a b : Octets n) : Bool :=
  a.compare b == .lt

/-- The state with a code. -/
def DriveState.ofCode (code : UInt8) : Except DriveError DriveState :=
  match ofCode? code with
  | some state => .ok state
  | none => .error (.unknownState code)

namespace Payment

/-- A payment at its meaning on a network. -/
def ofDocument (network : Network) (d : PaymentDocument) : Except DriveError Payment := do
  return ⟨← driveAccount network "receiver" d.receiver, d.amount, d.height⟩

end Payment

namespace Billing

/-- A billing period at its meaning on a network, up to the first payment that has none. -/
def ofDocument (network : Network) (d : BillingDocument) : Except DriveError Billing := do
  return ⟨d.start, d.stop, ← d.payments.mapM (Payment.ofDocument network)⟩

end Billing

/-- A file of a drive, with its size. -/
def fileOfDocument (d : FileDocument) : Except DriveError (Hash × StorageSize) := do
  return (← driveHash "files.fileHash" d.hash, d.size)

namespace Replicator

/-- A replicator at its meaning on a network; a file that is listed twice counts once. -/
def ofDocument (network : Network) (d : ReplicatorDocument) : Except DriveError Replicator := do
  let account ← driveAccount network "replicators.replicator" d.key
  let hashes ← d.undeposited.mapM (driveHash "replicators.activeFilesWithoutDeposit")
  return ⟨account, d.start, d.stop, d.index, Sorted.members Octets.before hashes⟩

end Replicator

namespace Drive

/-- A drive at its meaning on a network: lists first, and the first error that is met. -/
def ofDocument (network : Network) (d : DriveDocument) : Except DriveError Drive := do
  let billings ← d.billings.mapM (Billing.ofDocument network)
  let files ← d.files.mapM fileOfDocument
  let replicators ← d.replicators.mapM (Replicator.ofDocument network)
  let account ← driveAccount network "multisig" d.key
  let state ← DriveState.ofCode d.state
  let owner ← driveAccount network "owner" d.owner
  let root ← driveHash "rootHash" d.root
  let uploadPayments ← d.uploadPayments.mapM (Payment.ofDocument network)
  return {
    account, state, owner, root, billings, uploadPayments
    start := d.start
    duration := d.duration
    billingPeriod := d.billingPeriod
    billingPrice := d.billingPrice
    size := d.size
    occupied := d.occupied
    replicas := d.replicas
    minReplicators := d.minReplicators
    percentApprovers := d.percentApprovers
    files := Sorted.ofList Octets.before files
    replicators := Sorted.ofList (fun a b => decide (a < b))
      (replicators.map fun r => (r.account.key.hex, r)) }

/-- What has been decoded, at its meaning. -/
def ofDecoded (network : Network) (decoded : Except Json.Error DriveDocument) :
    Except DriveError Drive :=
  match decoded with
  | .error e => .error (.json e)
  | .ok document => ofDocument network document

/-- Reads a drive from a value of a text. -/
def ofJson (network : Network) (value : Json) : Except DriveError Drive :=
  ofDecoded network (DriveDocument.envelopeDecoder .text value)

/-- Reads a drive from a text. -/
def ofText (network : Network) (text : List UInt8) : Except DriveError Drive :=
  ofDecoded network (Json.decodeText DriveDocument.envelopeDecoder text)

end Drive

namespace Pagination

/-- The four numbers of a place among pages; all of them are required. -/
def fields : Fields Pagination :=
  Pagination.mk <$> .required "totalEntries" Decoder.word64
    <*> .required "pageNumber" Decoder.word64 <*> .required "pageSize" Decoder.word64
    <*> .required "totalPages" Decoder.word64

/-- A place among pages. -/
def decoder : Decoder Pagination :=
  fields.record "a place among pages"

/-- The members of the document about a place among pages. -/
def members (p : Pagination) : List (String × Json) :=
  [("totalEntries", .natural p.totalEntries.toNat), ("pageNumber", .natural p.pageNumber.toNat),
   ("pageSize", .natural p.pageSize.toNat), ("totalPages", .natural p.totalPages.toNat)]

end Pagination

namespace DrivePage

/-- The entries of a page as they stand, and where the page stands. -/
def decoder : Decoder (List Json × Pagination) :=
  Fields.record "a page of drives" <|
    Prod.mk <$> .required "data" Decoder.rawList <*> .required "pagination" Pagination.decoder

/-- Reads a page from a text; its entries are read each on its own. -/
def ofText (network : Network) (text : List UInt8) : Except DriveError DrivePage :=
  match Json.decodeText decoder text with
  | .error e => .error (.json e)
  | .ok (entries, pagination) =>
    match Page.map (Drive.ofJson network) entries with
    | .error e => .error (.entry e.index e.cause)
    | .ok drives => .ok ⟨drives, pagination⟩

end DrivePage

end DriveChain
