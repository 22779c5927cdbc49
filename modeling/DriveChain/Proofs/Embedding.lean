import DriveChain.Proofs.Overflow
import DriveChain.Proofs.Signing

/-!
# The embedded form is cut out of the full one

A transaction has two forms in bytes, and the embedded one has two writers: that of
a transaction on its own, which compares what it has written with the size it has
announced, and that of an aggregate for what it holds, which does not. Both write
the same header, and the comparison never fails, so an aggregate holds just what its
parts are written as on their own, and where one of them is not written neither is
the aggregate, for the same reason.

Of the full form the embedded one leaves out the signature, the fee and the
deadline, and it begins with a size of its own. Everything else is behind the same
checks, so a transaction that has the one form has the other.
-/

namespace DriveChain

namespace Transaction

/-! ## One writer for both -/

/-- The comparison of the size with what has been written can be left out. -/
theorem toEmbeddedBytes_eq (tx : Transaction) : tx.toEmbeddedBytes = do
    let front ← tx.header.embeddedBytes (tx.size - Layout.embeddedReduction)
    let body ← tx.payloadBytes
    return front ++ body := by
  cases hfront : tx.header.embeddedBytes (tx.size - Layout.embeddedReduction) with
  | error e =>
      unfold toEmbeddedBytes
      simp only []
      rw [hfront]
      rfl
  | ok front =>
      cases hbody : tx.payloadBytes with
      | error e =>
          unfold toEmbeddedBytes
          simp only []
          rw [hfront, hbody]
          rfl
      | ok body => exact toEmbeddedBytes_ok.2 ⟨front, body, hfront, hbody, rfl⟩

/-- What an aggregate holds are the embedded forms of its parts; if they cannot all be
written, the first failure is that of the aggregate. -/
theorem innerBytes_eq_mapM (txs : List Transaction) :
    innerBytes txs = List.flatten <$> txs.mapM toEmbeddedBytes := by
  induction txs with
  | nil => rfl
  | cons tx rest ih =>
      rw [innerBytes_step, List.mapM_cons, toEmbeddedBytes_eq, ih]
      cases tx.header.embeddedBytes (tx.size - Layout.embeddedReduction) with
      | error e => rfl
      | ok front =>
          cases tx.payloadBytes with
          | error e => rfl
          | ok body => cases rest.mapM toEmbeddedBytes <;> rfl

theorem exists_of_innerBytes {txs : List Transaction} {b : List UInt8}
    (hb : innerBytes txs = .ok b) :
    ∃ parts : List (List UInt8), txs.map toEmbeddedBytes = parts.map .ok ∧ b = parts.flatten := by
  induction txs generalizing b with
  | nil =>
      cases innerBytes_nil.symm.trans hb
      exact ⟨[], rfl, rfl⟩
  | cons tx rest ih =>
      obtain ⟨x, y, hx, hy, rfl⟩ := innerBytes_cons.1 hb
      obtain ⟨parts, hparts, rfl⟩ := ih hy
      exact ⟨x :: parts, by rw [List.map_cons, List.map_cons, hx, hparts], rfl⟩

/-! ## The two forms of a transaction -/

/-- The embedded form fails where the full one does: its size is smaller, and behind
the header both are the same. -/
theorem failure_toEmbeddedBytes {tx : Transaction} (h : tx.size < UInt32.size) :
    failure tx.toEmbeddedBytes = failure tx.toBytes := by
  have hfront : tx.header.embeddedBytes (tx.size - Layout.embeddedReduction) = .ok _ :=
    Header.embeddedBytes_ok.2 ⟨Nat.lt_of_le_of_lt (Nat.sub_le _ _) h, rfl⟩
  rw [failure_toBytes h, ← failure_payloadBytes tx (Nat.lt_of_le_of_lt (Nat.sub_le _ _) h),
    toEmbeddedBytes_eq, hfront]
  cases tx.payloadBytes <;> rfl

/-- What stands in the bytes of a transaction behind the signature and behind the
header. -/
theorem cuts_of_toBytes {tx : Transaction} {b : List UInt8} (hb : tx.toBytes = .ok b) :
    (b.drop 68).take 38 = tx.header.identityBytes ∧ tx.payloadBytes = .ok (b.drop 122) := by
  obtain ⟨front, body, hfront, hbody, rfl⟩ := toBytes_ok.1 hb
  have hheader := Header.length_bytes hfront
  obtain ⟨_, rfl⟩ := Header.bytes_ok.1 hfront
  refine ⟨?_, ?_⟩
  · have hsignature : (bytes32 (UInt32.ofNat tx.size) ++
        tx.header.signatureOctets.bytes).length = 68 := by
      rw [List.length_append, length_bytes32, tx.header.signatureOctets.length_bytes]
    simp only [List.append_assoc] at hsignature ⊢
    rw [← List.append_assoc, List.drop_left' hsignature,
      List.take_left' tx.header.length_identityBytes]
  · rw [Layout.headerSize] at hheader
    rw [List.drop_left' hheader]
    exact hbody

/-- The embedded form has a size of its own, the bytes between signature and fee, and
what is behind the header. -/
theorem toEmbeddedBytes_of_toBytes {tx : Transaction} {b : List UInt8}
    (hb : tx.toBytes = .ok b) : tx.toEmbeddedBytes =
      .ok (bytes32 (UInt32.ofNat (tx.size - 80)) ++ (b.drop 68).take 38 ++ b.drop 122) := by
  obtain ⟨hidentity, hbody⟩ := cuts_of_toBytes hb
  have hlt := (toBytes_slots.1 hb).1
  rw [hidentity]
  exact toEmbeddedBytes_ok.2 ⟨_, _, Header.embeddedBytes_ok.2
    ⟨Nat.lt_of_le_of_lt (Nat.sub_le _ _) hlt, rfl⟩, hbody, rfl⟩

/-- Behind its header, an aggregate has the size of its parts, then each of them as
it is written on its own, then its cosignatures. -/
theorem drop_header_aggregate {header : Header} {inner : List Transaction}
    {cosignatures : List Cosignature} {b : List UInt8}
    (hb : (aggregate header inner cosignatures).toBytes = .ok b) :
    ∃ parts : List (List UInt8), inner.map toEmbeddedBytes = parts.map .ok ∧
      (parts.map List.length).sum < UInt32.size ∧
      b.drop 122 = bytes32 (UInt32.ofNat (parts.map List.length).sum) ++ parts.flatten ++
        cosignatures.flatMap fun c => c.signer.key.bytes ++ c.signature.bytes := by
  obtain ⟨_, hbody⟩ := cuts_of_toBytes hb
  obtain ⟨hlt, body, hinner, hdrop⟩ := payloadBytes_aggregate_ok.1 hbody
  obtain ⟨parts, hparts, rfl⟩ := exists_of_innerBytes hinner
  have hsum : innerSize inner = (parts.map List.length).sum := by
    rw [← length_innerBytes hinner, List.length_flatten]
  rw [hsum] at hlt hdrop
  exact ⟨parts, hparts, hlt, hdrop⟩

/-- A transaction whose size four bytes hold has the embedded form just if it has the
full one, and fails for the same reason otherwise. The embedded form is the size less
eighty, what is between signature and fee, and what is behind the header. An
aggregate holds, between the size of them all and its cosignatures, the embedded
forms of its parts, and its writer for parts fails where the first of them fails. -/
theorem embedded_form_is_cut_from_full :
    (∀ tx : Transaction, tx.size < UInt32.size →
      ((∃ x, tx.toEmbeddedBytes = .ok x) ↔ ∃ b, tx.toBytes = .ok b) ∧
      (∀ e, tx.toEmbeddedBytes = .error e ↔ tx.toBytes = .error e) ∧
      ∀ b, tx.toBytes = .ok b → tx.toEmbeddedBytes =
        .ok (bytes32 (UInt32.ofNat (tx.size - 80)) ++ (b.drop 68).take 38 ++ b.drop 122)) ∧
    (∀ header inner cosignatures b, (aggregate header inner cosignatures).toBytes = .ok b →
      ∃ parts : List (List UInt8), inner.map toEmbeddedBytes = parts.map .ok ∧
        (parts.map List.length).sum < UInt32.size ∧
        b.drop 122 = bytes32 (UInt32.ofNat (parts.map List.length).sum) ++ parts.flatten ++
          cosignatures.flatMap fun c => c.signer.key.bytes ++ c.signature.bytes) ∧
    ∀ txs, innerBytes txs = List.flatten <$> txs.mapM toEmbeddedBytes := by
  refine ⟨fun tx hsize => ?_, fun header inner cosignatures b => drop_header_aggregate,
    innerBytes_eq_mapM⟩
  have hfailure := failure_toEmbeddedBytes hsize
  refine ⟨?_, fun e => ?_, fun b => toEmbeddedBytes_of_toBytes⟩
  · rw [← failure_eq_none, ← failure_eq_none, hfailure]
  · rw [← failure_eq_some, ← failure_eq_some, hfailure]

theorem unkempt_and_overfull_embedded :
    (∃ b, unkempt.toBytes = .ok b ∧ unkempt.toEmbeddedBytes =
        .ok (bytes32 250 ++ (b.drop 68).take 38 ++ b.drop 122) ∧
      ∃ part, unkempt.inner.map toEmbeddedBytes = [.ok part] ∧
        b.drop 122 = bytes32 108 ++ part ++ (List.replicate 32 4 ++ List.replicate 64 0)) ∧
    (overfull 3 65538 65536).toEmbeddedBytes =
      .error (.invalid (.manyEntries "removeActions" 65538)) := by
  obtain ⟨htx, haggregate, _⟩ := embedded_form_is_cut_from_full
  refine ⟨?_, ?_⟩
  · have hsize : unkempt.size = 330 := by decide
    have hlt : unkempt.size < UInt32.size := by
      rw [hsize]
      decide
    obtain ⟨b, hb⟩ := unkempt_toBytes
    obtain ⟨parts, hparts, _, hdrop⟩ := haggregate _ _ _ _ hb
    have hcut := (htx unkempt hlt).2.2 b hb
    rw [hsize] at hcut
    refine ⟨b, hb, hcut, ?_⟩
    obtain ⟨part, rfl⟩ := List.length_eq_one_iff.1
      (by simpa using (congrArg List.length hparts).symm)
    refine ⟨part, hparts, ?_⟩
    have hlength := length_toEmbeddedBytes (List.cons.inj hparts).1
    have hpart : part.length = 108 := hlength
    rw [List.map_singleton, List.sum_singleton, hpart, List.flatten_singleton] at hdrop
    rw [hdrop]
    rfl
  · have hlt : (overfull 3 65538 65536).size < UInt32.size := by
      rw [size_overfull]
      decide
    refine ((htx _ hlt).2.1 _).2 ?_
    rw [← failure_eq_some, failure_toBytes hlt, counted_overfull]
    rfl

end Transaction

end DriveChain
