import DriveChain.Proofs.Fields
import DriveChain.Proofs.HeaderBytes

/-!
# Headers are documents in normal form

The documents of headers, and of what nodes report, are written with a member
for whatever is there, and are read with a default or nothing for whatever is
not. What is reported comes back as it was. A header comes back in its normal
form, like from bytes, but with its report; and no header is read that is not in
normal form.
-/

namespace DriveChain

open Json (Decoder Fields)

/-! ## Texts of fields -/

theorem Octets.ofField_hex {n : Nat} (field : String) (octets : Octets n) :
    ofField n field octets.hex = .ok octets := by
  unfold ofField
  rw [ofHex_hex]

theorem Octets.ofOptionalField_hex {n : Nat} (field : String) (o : Option (Octets n)) :
    ofOptionalField n field (o.map Octets.hex) = .ok o := by
  cases o with
  | none => rfl
  | some octets =>
      rw [Option.map_some, ofOptionalField, ofField_hex]

theorem Account.ofField_hex (field : String) (key : Key) (network : Network) :
    ofField field key.hex network = .ok (.ofKey key network) := by
  unfold ofField
  rw [Octets.ofField_hex]

theorem Account.on_of_ofField {field text : String} {network : Network} {a : Account}
    (h : ofField field text network = .ok a) : a.on network = a := by
  unfold ofField at h
  split at h
  · cases h
  · cases h
    rfl

theorem written_text (name : String) (o : Option String) :
    (Fields.nullable name Decoder.text).Written (optionalMember name Json.string o) o := by
  have hwritten := Fields.written_nullable name Decoder.text_reads
    (fun _ h => Json.noConfusion h) o
  rw [Option.map_id'] at hwritten
  exact hwritten

theorem written_hex {n : Nat} (name : String) (o : Option (Octets n)) :
    (Fields.nullable name Decoder.text).Written (optionalMember name Json.ofOctets o)
      (o.map Octets.hex) :=
  Fields.written_nullable name (fun octets : Octets n => Decoder.text_reads octets.hex)
    (fun _ h => Json.noConfusion h) o

/-! ## Reports -/

namespace Info

/-- The document that a report is written as. -/
def document (info : Info) : InfoDocument where
  height := some info.height
  index := some info.index
  id := some info.id
  hash := info.hash.map Octets.hex
  merkleComponentHash := info.merkleComponentHash.map Octets.hex
  aggregateHash := info.aggregateHash.map Octets.hex
  aggregateId := info.aggregateId

theorem members_written (info : Info) :
    InfoDocument.fields.Written info.members info.document := by
  have hheight := Fields.written_some "height" (Decoder.pair_reads info.height)
    (fun h => Json.noConfusion h)
  have hindex := Fields.written_some "index" (Decoder.word32_reads info.index)
    (fun h => Json.noConfusion h)
  have hid := Fields.written_some "id" (Decoder.text_reads info.id)
    (fun h => Json.noConfusion h)
  have hhash := written_hex "hash" info.hash
  have hmerkle := written_hex "merkleComponentHash" info.merkleComponentHash
  have haggregate := written_hex "aggregateHash" info.aggregateHash
  have haggregateId := written_text "aggregateId" info.aggregateId
  exact ((((((hheight.map InfoDocument.mk).seq hindex).seq hid).seq hhash).seq hmerkle).seq
    haggregate).seq haggregateId

theorem ofDocument_document (info : Info) : ofDocument info.document = .ok info := by
  simp only [ofDocument, document, Octets.ofOptionalField_hex]
  rfl

theorem members_reads (info : Info) :
    InfoDocument.decoder.Reads (Json.ofMembers info.members) info.document :=
  info.members_written.ofMembers_reads (by decide) "struct TransactionInfoDto"

end Info

/-! ## Headers -/

theorem HeaderDocument.members_written (d : HeaderDocument) :
    HeaderDocument.fields.Written d.members d := by
  have hsignature := written_text "signature" d.signature
  have hsigner := written_text "signer" d.signer
  have hversion := Fields.written_required "version" (Decoder.word32_reads d.packedVersion)
  have htype := Fields.written_required "type" (Decoder.word16_reads d.code)
  have hfee := Fields.written_optional "maxFee" 0 (Decoder.pair_reads d.maxFee)
  have hdeadline := Fields.written_optional "deadline" 0 (Decoder.pair_reads d.deadline)
  have hwritten := (((((hsignature.map HeaderDocument.mk).seq hsigner).seq hversion).seq
    htype).seq hfee).seq hdeadline
  simp only [List.append_assoc] at hwritten
  unfold HeaderDocument.members
  rw [List.append_assoc]
  exact hwritten

namespace Header

theorem ofDocument_ok {d : HeaderDocument} {info : Option Info} {h : Header} :
    ofDocument d info = .ok h ↔ ∃ type network signer signature,
      TransactionType.ofCode d.code = .ok type ∧
      Network.ofPacked d.packedVersion = .ok network ∧
      Octets.ofOptionalField 32 "signer" d.signer = .ok signer ∧
      Octets.ofOptionalField 64 "signature" d.signature = .ok signature ∧
      { network, version := unpackVersion d.packedVersion, type, deadline := d.deadline,
        maxFee := d.maxFee, signer := (signer.bind Octets.nonzero?).map (Account.ofKey · network),
        signature := signature.bind Octets.nonzero?, info : Header } = h := by
  unfold ofDocument
  simp only [except_bind_ok]
  cases Network.ofPacked d.packedVersion with
  | error e => simp [except_bind_ok]
  | ok network =>
      simp only [except_bind_ok, except_pure_ok, Except.ok.injEq, exists_eq_left',
        exists_and_left]

/-- A header is read from its document in normal form. -/
theorem ofDocument_document (h : Header) : ofDocument h.document h.info = .ok h.normal := by
  have hversion : unpackVersion h.packedVersion = unpackVersion h.version :=
    unpackVersion_packVersion h.network h.version
  have hnetwork : Network.ofPacked h.packedVersion = .ok h.network := by
    rw [Network.ofPacked_ok, packedVersion, unpackVersion_packVersion,
      packVersion_unpackVersion]
  have hsigner : Octets.ofOptionalField 32 "signer" h.document.signer =
      .ok (h.signer.map (·.key)) := by
    rw [← Octets.ofOptionalField_hex "signer", Option.map_map]
    rfl
  have hkey : (h.signer.map (·.key)).bind Octets.nonzero? =
      h.signer.bind fun a => a.key.nonzero? := Option.bind_map
  refine ofDocument_ok.2 ⟨h.type, h.network, _, h.signature,
    TransactionType.ofCode_ok.2 rfl, hnetwork, hsigner,
    Octets.ofOptionalField_hex "signature" h.signature, ?_⟩
  rw [hkey]
  unfold normal
  rw [← hversion]
  rfl

theorem isNormal_of_ofDocument {d : HeaderDocument} {info : Option Info} {h : Header}
    (hread : ofDocument d info = .ok h) : h.IsNormal := by
  obtain ⟨type, network, signer, signature, _, _, _, _, rfl⟩ := ofDocument_ok.1 hread
  refine isNormal_of_read signer signature ?_ rfl rfl
  rw [toNat_unpackVersion]
  exact Nat.mod_lt _ (by decide)

end Header

end DriveChain
