import DriveChain.Proofs.TransactionBytes

/-!
# The byte form is canonical

Two statements about the byte form as a whole. Reading undoes writing: the bytes
of a transaction are read as its normal form, less what bytes do not carry. And
writing undoes reading: bytes that are read as a transaction are the bytes that
it is written in, so that no two byte strings are the same transaction.

Both come from what the reader accepts. The second is one half of that, and the
first is the other half for the normal form of a transaction, once it is known
that the writers cannot tell a transaction from its normal form. That is shown
here part by part: accounts are written as their keys, and what brings a header
into normal form is lost in its bytes.
-/

namespace DriveChain

/-! ## Writers do not see addresses -/

namespace VerificationFailure

theorem listSize_map_on (network : Network) (fs : List VerificationFailure) :
    listSize (fs.map (on network)) = listSize fs := by
  induction fs with
  | nil => rfl
  | cons f fs ih =>
      rw [List.map_cons, listSize, listSize, ih]
      rfl

end VerificationFailure

namespace Payload

theorem size_on (network : Network) (p : Payload) : (p.on network).size = p.size := by
  cases p with
  | driveFilesReward uploads =>
      rw [on, size, size, List.length_map]
  | endDriveVerification failures =>
      rw [on, size, size, VerificationFailure.listSize_map_on]
  | _ => rfl

theorem bytes_on (network : Network) (p : Payload) : (p.on network).bytes = p.bytes := by
  cases p with
  | driveFilesReward uploads =>
      rw [on, bytes, bytes, List.length_map, List.flatMap_map]
      rfl
  | endDriveVerification failures =>
      rw [on, bytes, bytes, VerificationFailure.listBytes_map_on]
  | _ => rfl

end Payload

namespace Transaction

theorem innerSize_map {f : Transaction → Transaction} {txs : List Transaction}
    (h : ∀ tx ∈ txs, (f tx).size = tx.size) : innerSize (txs.map f) = innerSize txs := by
  induction txs with
  | nil => rfl
  | cons tx txs ih =>
      rw [List.forall_mem_cons] at h
      rw [List.map_cons, innerSize, innerSize, h.1, ih h.2]

theorem innerBytes_map {f : Transaction → Transaction} {txs : List Transaction}
    {b : List UInt8}
    (h : ∀ tx ∈ txs, ∀ b, tx.toEmbeddedBytes = .ok b → (f tx).toEmbeddedBytes = .ok b)
    (hb : innerBytes txs = .ok b) : innerBytes (txs.map f) = .ok b := by
  induction txs generalizing b with
  | nil => exact hb
  | cons tx txs ih =>
      rw [List.forall_mem_cons] at h
      obtain ⟨x, y, hx, hy, rfl⟩ := innerBytes_cons.1 hb
      exact innerBytes_cons.2 ⟨x, y, h.1 x hx, ih h.2 hy, rfl⟩

theorem size_normal_single (header : Header) (payload : Payload) :
    (single header payload).normal.size = (single header payload).size := by
  rw [normal_single, size, size, Payload.size_on]

/-- An inner transaction, its normal form and that less what the embedded form
does not hold are written alike. -/
theorem toEmbeddedBytes_normal {tx : Transaction} {b : List UInt8}
    (hshape : tx.shape ≠ .aggregate) (hb : tx.toEmbeddedBytes = .ok b) :
    tx.normal.embedded.toEmbeddedBytes = .ok b := by
  obtain ⟨header, payload, rfl⟩ := exists_single hshape
  obtain ⟨front, body, hfront, hbody, rfl⟩ := toEmbeddedBytes_ok.1 hb
  have hsize := size_normal_single header payload
  rw [normal_single] at hsize ⊢
  refine toEmbeddedBytes_ok.2 ⟨front, body, ?_, ?_, rfl⟩
  · show header.normal.embeddedBytes
      ((single header.normal (payload.on header.network)).size - _) = .ok front
    rw [Header.embeddedBytes_normal, hsize]
    exact hfront
  · show (single header.normal.embedded (payload.on header.network)).payloadBytes = .ok body
    rw [payloadBytes] at hbody ⊢
    rw [Payload.bytes_on]
    exact hbody

/-- A transaction is written like what it is read back as. -/
theorem toBytes_normal_carried {tx : Transaction} {b : List UInt8} (h : tx.WellTyped)
    (hb : tx.toBytes = .ok b) : tx.normal.carried.toBytes = .ok b := by
  obtain ⟨front, body, hfront, hbody, rfl⟩ := toBytes_ok.1 hb
  cases tx with
  | single header payload =>
      have hsize := size_normal_single header payload
      rw [normal_single] at hsize ⊢
      refine toBytes_ok.2 ⟨front, body, ?_, ?_, rfl⟩
      · show header.normal.bytes (single header.normal (payload.on header.network)).size =
          .ok front
        rw [Header.bytes_normal, hsize]
        exact hfront
      · show (single header.normal.unreported (payload.on header.network)).payloadBytes =
          .ok body
        rw [payloadBytes] at hbody ⊢
        rw [Payload.bytes_on]
        exact hbody
  | aggregate header inner cosignatures =>
      have hshape : ∀ part ∈ inner, part.shape ≠ .aggregate :=
        fun part hpart => (h.inner part hpart).2
      have hinner : innerSize ((inner.map normal).map embedded) = innerSize inner := by
        rw [List.map_map]
        refine innerSize_map fun part hpart => ?_
        obtain ⟨header', payload, rfl⟩ := exists_single (hshape part hpart)
        rw [Function.comp_apply, ← size_normal_single, normal_single]
        rfl
      have hsize : (aggregate header inner cosignatures).normal.carried.size =
          (aggregate header inner cosignatures).size := by
        rw [normal_aggregate, carried, size, size, hinner, List.length_map]
      obtain ⟨hlt, parts, hparts, rfl⟩ := payloadBytes_aggregate_ok.1 hbody
      refine toBytes_ok.2 ⟨front, _, ?_, ?_, rfl⟩
      · rw [hsize, normal_aggregate]
        show header.normal.bytes _ = .ok front
        rw [Header.bytes_normal]
        exact hfront
      · rw [normal_aggregate, carried]
        refine payloadBytes_aggregate_ok.2 ⟨by rw [hinner]; exact hlt, parts, ?_, ?_⟩
        · rw [List.map_map]
          exact innerBytes_map
            (fun part hpart b hb => toEmbeddedBytes_normal (hshape part hpart) hb) hparts
        · rw [hinner, List.flatMap_map]
          rfl

/-! ## Reading and writing -/

theorem ofBytes_of_toBytes {tx : Transaction} {b : List UInt8} (h : tx.WellTyped)
    (hb : tx.toBytes = .ok b) : ofBytes b = .ok tx.normal.carried :=
  ofBytes_ok.2 ⟨normal_carried_isCarried h, toBytes_normal_carried h hb⟩

/-- Bytes carry no report, so none is there when they were read. -/
theorem info_of_ofBytes {b : List UInt8} {tx : Transaction} (h : ofBytes b = .ok tx) :
    tx.header.info = none :=
  (ofBytes_ok.1 h).1.2.info

/-- The bytes of a transaction are read as its normal form, less what bytes do
not carry; and that is the transaction itself just if it was so already. -/
theorem ofBytes_toBytes {tx : Transaction} {b : List UInt8} (h : tx.WellTyped)
    (hb : tx.toBytes = .ok b) :
    ofBytes b = .ok tx.normal.carried ∧ (tx.normal.carried = tx ↔ tx.IsCarried) := by
  refine ⟨ofBytes_of_toBytes h hb, fun heq => ?_, normal_carried_eq_self h⟩
  rw [← heq]
  exact (normal_carried_isCarried h).2

theorem unkempt_toBytes : ∃ b, unkempt.toBytes = .ok b := by
  have hdeposit : innerBytes unkempt.inner = .ok _ :=
    innerBytes_cons.2 ⟨_, _, toEmbeddedBytes_ok.2
      ⟨_, _, Header.embeddedBytes_ok.2 ⟨by decide, rfl⟩, rfl, rfl⟩, innerBytes_nil, rfl⟩
  exact ⟨_, toBytes_ok.2 ⟨_, _, Header.bytes_ok.2 ⟨by decide, rfl⟩,
    payloadBytes_aggregate_ok.2 ⟨by decide, _, hdeposit, rfl⟩, rfl⟩⟩

theorem unkempt_ofBytes : ∃ b, unkempt.toBytes = .ok b ∧
    ofBytes b = .ok unkempt.normal.carried ∧ unkempt.normal.carried ≠ unkempt := by
  obtain ⟨b, hb⟩ := unkempt_toBytes
  obtain ⟨hread, hself⟩ := ofBytes_toBytes unkempt_wellTyped hb
  refine ⟨b, hb, hread, fun heq => ?_⟩
  cases (hself.1 heq).info

/-- Bytes that are read as a transaction are its bytes. So no two byte strings are
read as the same transaction, and those that are read are just the bytes that
transactions have. -/
theorem ofBytes_canonical :
    (∀ (b : List UInt8) (tx : Transaction), ofBytes b = .ok tx → tx.toBytes = .ok b) ∧
    (∀ (b b' : List UInt8) (tx : Transaction),
      ofBytes b = .ok tx → ofBytes b' = .ok tx → b = b') ∧
    (∀ b : List UInt8,
      (∃ tx, ofBytes b = .ok tx) ↔ ∃ tx : Transaction, tx.WellTyped ∧ tx.toBytes = .ok b) := by
  have hwrite : ∀ (b : List UInt8) (tx : Transaction),
      ofBytes b = .ok tx → tx.toBytes = .ok b := fun b tx h => (ofBytes_ok.1 h).2
  refine ⟨hwrite, fun b b' tx h h' => ?_, fun b => ⟨fun h => ?_, fun h => ?_⟩⟩
  · have heq := hwrite b tx h
    rw [hwrite b' tx h'] at heq
    cases heq
    rfl
  · obtain ⟨tx, htx⟩ := h
    obtain ⟨⟨htyped, _⟩, hb⟩ := ofBytes_ok.1 htx
    exact ⟨tx, htyped, hb⟩
  · obtain ⟨tx, htyped, hb⟩ := h
    exact ⟨tx.normal.carried, ofBytes_of_toBytes htyped hb⟩

/-- The bytes of the unkempt aggregate are read as another one, which has just these bytes. -/
theorem ofBytes_canonical_unkempt : ∃ (b : List UInt8) (tx : Transaction),
    unkempt.toBytes = .ok b ∧ ofBytes b = .ok tx ∧ tx ≠ unkempt ∧ tx.toBytes = .ok b ∧
      ∀ b', ofBytes b' = .ok tx → b' = b := by
  obtain ⟨hwrite, hone, hread⟩ := ofBytes_canonical
  obtain ⟨b, hb⟩ := unkempt_toBytes
  obtain ⟨tx, htx⟩ := (hread b).2 ⟨unkempt, unkempt_wellTyped, hb⟩
  refine ⟨b, tx, hb, htx, fun heq => ?_, hwrite b tx htx, fun b' h' => hone b' b tx h' htx⟩
  rw [heq] at htx
  cases info_of_ofBytes htx

end Transaction

end DriveChain
