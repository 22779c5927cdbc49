import DriveChain.Drive.Document
import DriveChain.Proofs.RecordMembers

/-!
# What the document of a drive lists

A drive is decoded from a value of a text into a document of typed parts, and what the parts
say is what stands in the value under their names. Lists may be absent, and are empty then.
Their items are the parts of the document one by one and in their order, so nothing that is
listed is lost or moved on the way.
-/

namespace DriveChain

open Json (Decoder Fields Says listed)

namespace PaymentDocument

/-- The members of a payment's document. -/
def names : List String :=
  ["receiver", "amount", "height"]

/-- The value is that of a payment. -/
structure IsIn (value : Json) (d : PaymentDocument) : Prop where
  receiver : Says (value.parts names) "receiver" Decoder.text d.receiver
  amount : Says (value.parts names) "amount" Decoder.pair d.amount
  height : Says (value.parts names) "height" Decoder.pair d.height

theorem isIn_of_decoder {value : Json} {d : PaymentDocument}
    (h : decoder .text value = .ok d) : d.IsIn value := by
  have hmade := Fields.ofMembers_parts names h rfl (by decide)
  simp only [Fields.ofMembers_seq_ok, Fields.ofMembers_map_ok, ↓existsAndEq, and_true,
    and_assoc] at hmade
  obtain ⟨height, amount, receiver, hreceiver, hamount, hheight, rfl⟩ := hmade
  exact ⟨Fields.lookup_of_required hreceiver, Fields.lookup_of_required hamount,
    Fields.lookup_of_required hheight⟩

end PaymentDocument

namespace BillingDocument

/-- The members of a billing period's document. -/
def names : List String :=
  ["start", "end", "payments"]

/-- The value is that of a billing period with its payments. -/
structure IsIn (value : Json) (d : BillingDocument) : Prop where
  start : Says (value.parts names) "start" Decoder.pair d.start
  stop : Says (value.parts names) "end" Decoder.pair d.stop
  payments : List.Forall₂ PaymentDocument.IsIn (listed (value.parts names) "payments") d.payments

theorem isIn_of_decoder {value : Json} {d : BillingDocument}
    (h : decoder .text value = .ok d) : d.IsIn value := by
  have hmade := Fields.ofMembers_parts names h rfl (by decide)
  simp only [Fields.ofMembers_seq_ok, Fields.ofMembers_map_ok, ↓existsAndEq, and_true,
    and_assoc] at hmade
  obtain ⟨payments, stop, start, hstart, hstop, hpayments, rfl⟩ := hmade
  exact ⟨Fields.lookup_of_required hstart, Fields.lookup_of_required hstop,
    (Json.listed_of_optional hpayments).imp fun _ _ h => PaymentDocument.isIn_of_decoder h⟩

end BillingDocument

namespace FileDocument

/-- The members of a file's document. -/
def names : List String :=
  ["fileHash", "size"]

/-- The value is that of a file. -/
structure IsIn (value : Json) (d : FileDocument) : Prop where
  hash : Says (value.parts names) "fileHash" Decoder.text d.hash
  size : Says (value.parts names) "size" Decoder.pair d.size

theorem isIn_of_decoder {value : Json} {d : FileDocument}
    (h : decoder .text value = .ok d) : d.IsIn value := by
  have hmade := Fields.ofMembers_parts names h rfl (by decide)
  simp only [Fields.ofMembers_seq_ok, Fields.ofMembers_map_ok, ↓existsAndEq, and_true] at hmade
  obtain ⟨size, hash, hhash, hsize, rfl⟩ := hmade
  exact ⟨Fields.lookup_of_required hhash, Fields.lookup_of_required hsize⟩

end FileDocument

namespace ReplicatorDocument

/-- The members of a replicator's document. -/
def names : List String :=
  ["replicator", "start", "end", "index", "activeFilesWithoutDeposit"]

/-- The value is that of a replicator. -/
structure IsIn (value : Json) (d : ReplicatorDocument) : Prop where
  key : Says (value.parts names) "replicator" Decoder.text d.key
  start : Says (value.parts names) "start" Decoder.pair d.start
  stop : Says (value.parts names) "end" Decoder.pair d.stop
  index : Says (value.parts names) "index" Decoder.word32 d.index ∨
    (value.parts names).lookup "index" = none ∧ d.index = 0
  undeposited : listed (value.parts names) "activeFilesWithoutDeposit" =
    d.undeposited.map .string

theorem isIn_of_decoder {value : Json} {d : ReplicatorDocument}
    (h : decoder .text value = .ok d) : d.IsIn value := by
  have hmade := Fields.ofMembers_parts names h rfl (by decide)
  simp only [Fields.ofMembers_seq_ok, Fields.ofMembers_map_ok, ↓existsAndEq, and_true,
    and_assoc] at hmade
  obtain ⟨undeposited, index, stop, start, key, hkey, hstart, hstop, hindex, hundeposited, rfl⟩ :=
    hmade
  have htexts := Json.listed_of_optional hundeposited
  simp only [Decoder.text_ok] at htexts
  refine ⟨Fields.lookup_of_required hkey, Fields.lookup_of_required hstart,
    Fields.lookup_of_required hstop, Fields.lookup_of_optional hindex, ?_⟩
  rw [← List.forall₂_eq_eq_eq, List.forall₂_map_right_iff]
  exact htexts

end ReplicatorDocument

namespace DriveDocument

/-- The members of a drive's document. -/
def names : List String :=
  ["multisig", "start", "state", "owner", "rootHash", "duration", "billingPeriod",
   "billingPrice", "size", "occupiedSpace", "replicas", "minReplicators", "percentApprovers",
   "billingHistory", "files", "replicators", "uploadPayments"]

/-- The value is that of a drive. -/
structure IsIn (value : Json) (d : DriveDocument) : Prop where
  key : Says (value.parts names) "multisig" Decoder.text d.key
  start : Says (value.parts names) "start" Decoder.pair d.start
  state : Says (value.parts names) "state" Decoder.word8 d.state
  owner : Says (value.parts names) "owner" Decoder.text d.owner
  root : Says (value.parts names) "rootHash" Decoder.text d.root
  duration : Says (value.parts names) "duration" Decoder.pair d.duration
  billingPeriod : Says (value.parts names) "billingPeriod" Decoder.pair d.billingPeriod
  billingPrice : Says (value.parts names) "billingPrice" Decoder.pair d.billingPrice
  size : Says (value.parts names) "size" Decoder.pair d.size
  occupied : Says (value.parts names) "occupiedSpace" Decoder.pair d.occupied ∨
    (value.parts names).lookup "occupiedSpace" = none ∧ d.occupied = 0
  replicas : Says (value.parts names) "replicas" Decoder.word16 d.replicas
  minReplicators : Says (value.parts names) "minReplicators" Decoder.word16 d.minReplicators
  percentApprovers : Says (value.parts names) "percentApprovers" Decoder.word8 d.percentApprovers
  billings : List.Forall₂ BillingDocument.IsIn (listed (value.parts names) "billingHistory")
    d.billings
  files : List.Forall₂ FileDocument.IsIn (listed (value.parts names) "files") d.files
  replicators : List.Forall₂ ReplicatorDocument.IsIn (listed (value.parts names) "replicators")
    d.replicators
  uploadPayments : List.Forall₂ PaymentDocument.IsIn
    (listed (value.parts names) "uploadPayments") d.uploadPayments

theorem isIn_of_decoder {value : Json} {d : DriveDocument}
    (h : decoder .text value = .ok d) : d.IsIn value := by
  have hmade := Fields.ofMembers_parts names h rfl (by decide)
  simp only [Fields.ofMembers_seq_ok, Fields.ofMembers_map_ok, ↓existsAndEq, and_true,
    and_assoc] at hmade
  obtain ⟨uploadPayments, replicators, files, billings, percentApprovers, minReplicators, replicas,
    occupied, size, billingPrice, billingPeriod, duration, root, owner, state, start, key, hkey,
    hstart, hstate, howner, hroot, hduration, hperiod, hprice, hsize, hoccupied, hreplicas, hleast,
    hpercent, hbillings, hfiles, hreplicators, huploads, rfl⟩ := hmade
  exact {
    key := Fields.lookup_of_required hkey
    start := Fields.lookup_of_required hstart
    state := Fields.lookup_of_required hstate
    owner := Fields.lookup_of_required howner
    root := Fields.lookup_of_required hroot
    duration := Fields.lookup_of_required hduration
    billingPeriod := Fields.lookup_of_required hperiod
    billingPrice := Fields.lookup_of_required hprice
    size := Fields.lookup_of_required hsize
    occupied := Fields.lookup_of_optional hoccupied
    replicas := Fields.lookup_of_required hreplicas
    minReplicators := Fields.lookup_of_required hleast
    percentApprovers := Fields.lookup_of_required hpercent
    billings := (Json.listed_of_optional hbillings).imp fun _ _ h =>
      BillingDocument.isIn_of_decoder h
    files := (Json.listed_of_optional hfiles).imp fun _ _ h => FileDocument.isIn_of_decoder h
    replicators := (Json.listed_of_optional hreplicators).imp fun _ _ h =>
      ReplicatorDocument.isIn_of_decoder h
    uploadPayments := (Json.listed_of_optional huploads).imp fun _ _ h =>
      PaymentDocument.isIn_of_decoder h }

/-- The value stands alone under the name of a drive. -/
theorem isIn_of_envelopeDecoder {value : Json} {d : DriveDocument}
    (h : envelopeDecoder .text value = .ok d) :
    ∃ inside, (value.parts ["drive"]).lookup "drive" = some inside ∧ d.IsIn inside := by
  have hmade := Fields.ofMembers_parts ["drive"] h rfl (by decide)
  obtain ⟨d, hdrive, rfl⟩ := Fields.ofMembers_map_ok.1 hmade
  obtain ⟨inside, hlookup, hread⟩ := Fields.lookup_of_required hdrive
  exact ⟨inside, hlookup, isIn_of_decoder hread⟩

end DriveDocument

end DriveChain
