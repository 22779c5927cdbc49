import DriveChain.Proofs.Signing
import DriveChain.Transaction.Aggregate

/-!
# Cosignatures are put behind a signed aggregate

The cosignatures of an aggregate are the last of its bytes and are not counted. So
those who agree to a signed aggregate need not be known to whoever wrote it: their
records are put behind the bytes, and only the size at the front is written anew.
The new bytes are again those of a transaction, of the same aggregate with more
cosignatures, and that is what they are read as.

The hash is the one that the aggregate has as it is signed alone. It is what those
who agree put their signatures to, so their records cannot be part of it.
-/

namespace DriveChain

/-! ## Bytes with more behind them -/

/-- Bytes that begin with their size, with records behind them and the size written
anew. -/
def extend (payload records : List UInt8) : List UInt8 :=
  bytes32 (UInt32.ofNat (payload.length + records.length)) ++ payload.drop 4 ++ records

theorem length_extend {payload : List UInt8} (h : 4 ≤ payload.length)
    (records : List UInt8) :
    (extend payload records).length = payload.length + records.length := by
  rw [extend, List.length_append, List.length_append, length_bytes32, List.length_drop]
  omega

namespace Transaction

theorem extend_nil {tx : Transaction} {b : List UInt8} (hb : tx.toBytes = .ok b) :
    extend b [] = b := by
  have hfront : b.take 4 = bytes32 (UInt32.ofNat b.length) := by
    rw [length_toBytes hb]
    obtain ⟨_, body, _, rfl⟩ := toBytes_slots.1 hb
    rw [take_size_slots]
  rw [extend, List.append_nil, List.length_nil, Nat.add_zero, ← hfront,
    List.take_append_drop]

theorem exists_aggregate {tx : Transaction} (h : tx.shape = .aggregate) :
    ∃ header inner cosignatures, tx = .aggregate header inner cosignatures := by
  cases tx with
  | single header payload => exact absurd h payload.shape_ne_aggregate
  | aggregate header inner cosignatures => exact ⟨header, inner, cosignatures, rfl⟩

section Signed

variable {tx : Transaction} (hshape : tx.shape = .aggregate) (key : Key)
  (signature : Signature)

theorem network_signed :
    (tx.normal.carried.signedBy key signature).header.network = tx.header.network := by
  rw [signedBy, header_withHeader]
  exact network_normal_carried tx

include hshape

theorem shape_signed : (tx.normal.carried.signedBy key signature).shape = .aggregate := by
  obtain ⟨header, inner, cosignatures, rfl⟩ := exists_aggregate hshape
  rw [normal_aggregate]
  rfl

theorem cosignatures_signed : (tx.normal.carried.signedBy key signature).cosignatures =
    tx.cosignatures.map (Cosignature.on tx.header.network) := by
  obtain ⟨header, inner, cosignatures, rfl⟩ := exists_aggregate hshape
  rw [normal_aggregate]
  rfl

end Signed

section MoreCosignatures

variable {tx : Transaction} {b : List UInt8} {more : List Cosignature}

theorem length_cosignatures (cosignatures : List Cosignature) :
    (cosignatures.flatMap Cosignature.bytes).length = 96 * cosignatures.length :=
  length_flatMap_of_width Cosignature.length_bytes cosignatures

theorem size_withCosignatures (hshape : tx.shape = .aggregate) (more : List Cosignature) :
    (tx.withCosignatures (tx.cosignatures ++ more)).size = tx.size + 96 * more.length := by
  obtain ⟨header, inner, cosignatures, rfl⟩ := exists_aggregate hshape
  rw [withCosignatures, size, size, Transaction.cosignatures, List.length_append,
    Layout.cosignature]
  omega

/-- The size changes, and the new records stand behind all that was there. -/
theorem toBytes_withCosignatures (hshape : tx.shape = .aggregate) (hb : tx.toBytes = .ok b)
    (hsize : tx.size + 96 * more.length < UInt32.size) :
    (tx.withCosignatures (tx.cosignatures ++ more)).toBytes =
      .ok (extend b (more.flatMap Cosignature.bytes)) := by
  have hgrown := size_withCosignatures hshape more
  rw [extend, length_toBytes hb, length_cosignatures]
  obtain ⟨header, inner, cosignatures, rfl⟩ := exists_aggregate hshape
  obtain ⟨_, body, hbody, rfl⟩ := toBytes_slots.1 hb
  obtain ⟨hlt, parts, hparts, rfl⟩ := payloadBytes_aggregate_ok.1 hbody
  refine toBytes_slots.2 ⟨hgrown ▸ hsize, _, payloadBytes_aggregate_ok.2
    ⟨hlt, parts, hparts, rfl⟩, ?_⟩
  rw [hgrown, drop_size_slots]
  simp only [slots, withCosignatures, Transaction.cosignatures, List.flatMap_append,
    List.append_assoc]
  rfl

/-- With more cosignatures behind it, an aggregate is read with these behind those it
has. -/
theorem ofBytes_withCosignatures (hshape : tx.shape = .aggregate) (h : ofBytes b = .ok tx)
    (hmore : ∀ c ∈ more, c.on tx.header.network = c)
    (hsize : tx.size + 96 * more.length < UInt32.size) :
    ofBytes (extend b (more.flatMap Cosignature.bytes)) =
      .ok (tx.withCosignatures (tx.cosignatures ++ more)) := by
  obtain ⟨hcarried, hb⟩ := ofBytes_ok.1 h
  refine ofBytes_ok.2 ⟨wellTyped_and_isCarried.2 ?_, toBytes_withCosignatures hshape hb hsize⟩
  obtain ⟨htype, hheader, hinfo, haccounts, hparts⟩ := wellTyped_and_isCarried.1 hcarried
  obtain ⟨header, inner, cosignatures, rfl⟩ := exists_aggregate hshape
  refine ⟨htype, hheader, hinfo, ?_, hparts⟩
  intro a ha
  rw [withCosignatures, accounts, Transaction.cosignatures, List.map_append,
    List.mem_append] at ha
  rcases ha with ha | ha
  · exact haccounts a ha
  · obtain ⟨c, hc, rfl⟩ := List.mem_map.1 ha
    exact congrArg Cosignature.signer (hmore c hc)

end MoreCosignatures

end Transaction

namespace Signing

open Transaction

/-! ## Signing with others -/

/-- The cosignature of someone who agrees to the aggregate with a hash, as an aggregate
on a network holds it. -/
def attached (network : Network) (hash : Hash) (cosigner : Signer) : Cosignature :=
  ⟨.ofKey (cosign hash cosigner).signer network, (cosign hash cosigner).signature⟩

/-- The keys and signatures of those who agree, in their order. -/
def records (hash : Hash) (cosigners : List Signer) : List UInt8 :=
  cosigners.flatMap fun cosigner =>
    (cosign hash cosigner).signer.bytes ++ (cosign hash cosigner).signature.bytes

/-- An aggregate on any network holds their cosignatures in the bytes of the records. -/
theorem flatMap_attached (network : Network) (hash : Hash) (cosigners : List Signer) :
    (cosigners.map (attached network hash)).flatMap Cosignature.bytes =
      records hash cosigners := by
  rw [List.flatMap_map]
  rfl

theorem length_records (hash : Hash) (cosigners : List Signer) :
    (records hash cosigners).length = 96 * cosigners.length := by
  rw [← flatMap_attached .mijin, length_cosignatures, List.length_map]

/-- Signing with others is signing alone, with their records put behind. -/
theorem signWith_ok {tx : Transaction} {signer : Signer} {generation : Hash}
    {alone : SignedTransaction} (htype : tx.type.shape = .aggregate)
    (halone : sign tx signer generation = .ok alone) (hlen : 4 ≤ alone.payload.length)
    (cosigners : List Signer)
    (hsize : alone.payload.length + 96 * cosigners.length < UInt32.size) :
    signWith tx signer cosigners generation =
      .ok { alone with payload := extend alone.payload (records alone.hash cosigners) } := by
  have hgrown : (alone.payload ++ records alone.hash cosigners).length < UInt32.size := by
    rw [List.length_append, length_records]
    exact hsize
  unfold signWith
  rw [if_pos (isAggregate_iff.2 htype), halone]
  show (if (alone.payload ++ records alone.hash cosigners).length < UInt32.size then _ else _) =
    _
  rw [if_pos hgrown, List.length_append, extend, List.append_assoc,
    ← List.drop_append_of_le_length hlen]
  rfl

/-- Cosigning adds a record for each cosigner, in their order, behind the aggregate as
it is signed alone, and changes its size and nothing else. It is read as the same
aggregate with the cosignatures added behind those it has. -/
theorem signWith_appends {tx : Transaction} {b : List UInt8} (htyped : tx.WellTyped)
    (hshape : tx.shape = .aggregate) (hb : tx.toBytes = .ok b) (signer : Signer)
    (cosigners : List Signer) (generation : Hash)
    (hsize : tx.size + 96 * cosigners.length < UInt32.size) :
    ∃ alone joint, sign tx signer generation = .ok alone ∧
      signWith tx signer cosigners generation = .ok joint ∧
      joint.hash = alone.hash ∧ joint.type = alone.type ∧
      Hex.decode alone.text = .ok alone.payload ∧ Hex.decode joint.text = .ok joint.payload ∧
      joint.payload.length = alone.payload.length + 96 * cosigners.length ∧
      joint.payload = bytes32 (UInt32.ofNat joint.payload.length) ++ alone.payload.drop 4 ++
        records alone.hash cosigners ∧
      (cosigners = [] → joint = alone) ∧
      ∃ read, ofBytes alone.payload = .ok read ∧
        read.cosignatures = tx.cosignatures.map (Cosignature.on tx.header.network) ∧
        ofBytes joint.payload = .ok (read.withCosignatures (read.cosignatures ++
          cosigners.map (attached tx.header.network alone.hash))) := by
  obtain ⟨alone, signature, halone, hread⟩ := exists_sign htyped hb signer generation
  have hbytes := (ofBytes_ok.1 hread).2
  have hlen := length_sign hb halone
  have hfour : 4 ≤ alone.payload.length := by
    rw [hlen, size_of_signable hb]
    omega
  have hextended := length_extend hfour (records alone.hash cosigners)
  refine ⟨alone, _, halone, signWith_ok (htyped.type.trans hshape) halone hfour cosigners ?_,
    rfl, rfl, Hex.decode_encode _, Hex.decode_encode _, ?_, ?_, ?_, _, hread,
    cosignatures_signed hshape _ _, ?_⟩
  · rw [hlen]
    exact hsize
  · rw [hextended, length_records]
  · rw [hextended, extend]
  · intro hnone
    subst hnone
    rw [records, List.flatMap_nil, extend_nil hbytes]
  · rw [← flatMap_attached tx.header.network]
    refine ofBytes_withCosignatures (shape_signed hshape _ _) hread ?_ ?_
    · intro c hc
      obtain ⟨cosigner, _, rfl⟩ := List.mem_map.1 hc
      rw [network_signed]
      rfl
    · rw [← length_toBytes hbytes, hlen, List.length_map]
      exact hsize

theorem signWith_appends_unkempt : ∃ (alone joint : SignedTransaction) (read : Transaction),
    sign unkempt echo (.zero 32) = .ok alone ∧
    signWith unkempt echo [echo, echo] (.zero 32) = .ok joint ∧ joint.hash = alone.hash ∧
    joint.payload.length = alone.payload.length + 192 ∧
    ofBytes joint.payload = .ok (read.withCosignatures
      [⟨.ofKey ⟨List.replicate 32 4, rfl⟩ .mijinTest, .zero 64⟩,
        ⟨.ofKey echo.key .mijinTest, echo.sign alone.hash.bytes⟩,
        ⟨.ofKey echo.key .mijinTest, echo.sign alone.hash.bytes⟩]) := by
  obtain ⟨b, hb⟩ := unkempt_toBytes
  obtain ⟨alone, joint, halone, hjoint, hhash, _, _, _, hlen, _, _, read, _, hattached,
      hread⟩ :=
    signWith_appends unkempt_wellTyped rfl hb echo [echo, echo] (.zero 32) (by decide)
  rw [hattached] at hread
  exact ⟨alone, joint, read, halone, hjoint, hhash, hlen, hread⟩

end Signing

end DriveChain
