import DriveChain.Proofs.AggregateBytes
import DriveChain.Proofs.Cosigning

/-!
# What signatures and hashes are made over

A signature is made over the bytes from the version on, and these leave out three
things: the size, the signature itself and the signer. The size is not lost, since
it is the number of the bytes; so what is signed is all of a transaction but who
signed it and how. Two transactions for which the same is signed are read as the
same transaction, whatever their variants.

The hash that is reported beside a signed payload is taken once, when the signature
is in its slot. Signing alone leaves the payload as it is then, and whoever takes
the hash of the payload finds the one reported. Those who agree to an aggregate sign
its hash, so their records cannot be part of what it is taken of: they are put behind
the payload afterwards, and the hash is that of the payload without them. The hash
of the whole payload is taken of more bytes, and is another one unless two byte
strings have the same digest.
-/

namespace DriveChain

namespace Transaction

/-! ## What is signed -/

theorem drop_eq_of_signableBytes {tx tx' : Transaction} {b b' : List UInt8}
    (hb : tx.toBytes = .ok b) (hb' : tx'.toBytes = .ok b') :
    tx.signableBytes = tx'.signableBytes ↔ b.drop 100 = b'.drop 100 := by
  rw [signableBytes_ok hb, signableBytes_ok hb', Except.ok.injEq]

/-- Bytes with the same behind their slots are read as transactions that differ in
what is in the slots. -/
theorem eq_signedBy_of_drop {tx tx' : Transaction} {b b' : List UInt8}
    (h : ofBytes b = .ok tx) (h' : ofBytes b' = .ok tx')
    (hdrop : b.drop 100 = b'.drop 100) :
    tx' = tx.signedBy tx'.header.signerKey tx'.header.signatureOctets := by
  obtain ⟨_, hb⟩ := ofBytes_ok.1 h
  obtain ⟨_, hb'⟩ := ofBytes_ok.1 h'
  have hsize : tx'.size = tx.size := by
    rw [size_of_signable hb, size_of_signable hb', hdrop]
  obtain ⟨_, body, _, hslots⟩ := toBytes_slots.1 hb'
  have hbehind : b'.drop 100 = tx'.header.signedBytes ++ body := by
    rw [hslots, drop_signer_slots]
  rw [← hbehind, ← hdrop, hsize] at hslots
  have hread := ofBytes_signedBy h tx'.header.signerKey tx'.header.signatureOctets
  rw [← hslots, h'] at hread
  exact Except.ok.inj hread

/-- The bytes that are signed for two transactions are the same just if what the
transactions are read back as agrees in all but the outer signer and signature. -/
theorem signableBytes_eq_iff {tx tx' : Transaction} {b b' : List UInt8}
    (htyped : tx.WellTyped) (htyped' : tx'.WellTyped) (hb : tx.toBytes = .ok b)
    (hb' : tx'.toBytes = .ok b') :
    ∃ read read', ofBytes b = .ok read ∧ ofBytes b' = .ok read' ∧
      (tx.signableBytes = tx'.signableBytes ↔ read' = read.withHeader
        { read.header with
          signer := read'.header.signer, signature := read'.header.signature }) := by
  have hread : ofBytes b = .ok tx.normal.carried := ofBytes_of_toBytes htyped hb
  have hread' : ofBytes b' = .ok tx'.normal.carried := ofBytes_of_toBytes htyped' hb'
  refine ⟨_, _, hread, hread', ?_⟩
  rw [drop_eq_of_signableBytes hb hb']
  refine ⟨fun hdrop => ?_, fun heq => ?_⟩
  · rw [eq_signedBy_of_drop hread hread' hdrop, signedBy, header_withHeader]
    rfl
  · obtain ⟨_, hbytes⟩ := ofBytes_ok.1 hread
    obtain ⟨_, hbytes'⟩ := ofBytes_ok.1 hread'
    have hwritten := toBytes_withHeader
      { tx.normal.carried.header with
        signer := tx'.normal.carried.header.signer
        signature := tx'.normal.carried.header.signature } hbytes rfl
    rw [← heq, hbytes', Except.ok.injEq] at hwritten
    rw [hwritten, drop_signer_slots]

/-- The unkempt aggregate with another signer and not reported by any node. -/
def resigned : Transaction :=
  unkempt.withHeader { unkempt.header with signer := join.header.signer, info := none }

theorem resigned_wellTyped : resigned.WellTyped :=
  ⟨rfl, by decide⟩

theorem signableBytes_eq_iff_resigned : ∃ read read' : Transaction,
    unkempt.signableBytes = resigned.signableBytes ∧ read' = read.withHeader
      { read.header with
        signer := read'.header.signer, signature := read'.header.signature } := by
  obtain ⟨b, hb⟩ := unkempt_toBytes
  have hb' : resigned.toBytes = .ok _ := toBytes_withHeader _ hb rfl
  have hsame : unkempt.signableBytes = resigned.signableBytes := by
    rw [drop_eq_of_signableBytes hb hb', drop_signer_slots]
  obtain ⟨read, read', _, _, hiff⟩ :=
    signableBytes_eq_iff unkempt_wellTyped resigned_wellTyped hb hb'
  exact ⟨read, read', hsame, hiff.1 hsame⟩

end Transaction

namespace Signing

open Transaction

/-! ## The reported hash -/

variable {tx : Transaction} {signer : Signer} {generation : Hash} {signed : SignedTransaction}

theorem toBytes_of_sign (h : sign tx signer generation = .ok signed) :
    ∃ b, tx.toBytes = .ok b := by
  unfold sign at h
  split at h
  · cases h
  · next b hb => exact ⟨b, hb⟩

theorem extend_slots (size : Nat) (signature : Signature) (key : Key)
    (body records : List UInt8) : extend (slots size signature key body) records =
      slots (100 + body.length + records.length) signature key (body ++ records) := by
  rw [extend, drop_size_slots, length_slots]
  simp only [slots, List.append_assoc]

theorem records_eq_nil_iff {hash : Hash} {cosigners : List Signer} :
    records hash cosigners = [] ↔ cosigners = [] := by
  rw [← List.length_eq_zero_iff, length_records, ← List.length_eq_zero_iff]
  omega

/-- With others or without, what is signed alone is signed, and the records of the
others stand behind it. -/
theorem exists_of_signWith {cosigners : List Signer}
    (h : signWith tx signer cosigners generation = .ok signed) :
    ∃ alone, sign tx signer generation = .ok alone ∧ signed.hash = alone.hash ∧
      signed.payload = extend alone.payload (records alone.hash cosigners) := by
  unfold signWith at h
  split at h
  · next htype =>
      split at h
      · cases h
      · next alone halone =>
          dsimp only at h
          split at h
          · next hsize =>
              cases h
              obtain ⟨b, hb⟩ := toBytes_of_sign halone
              have hlen : 4 ≤ alone.payload.length := by
                rw [length_sign hb halone, size_of_signable hb]
                omega
              refine ⟨alone, halone, rfl, ?_⟩
              rw [extend, List.append_assoc, ← List.drop_append_of_le_length hlen,
                ← List.length_append]
              rfl
          · cases h
  · cases h

/-- What stands in the slots of a signed payload, and what its hash is taken of. -/
theorem slots_of_signWith {cosigners : List Signer}
    (h : signWith tx signer cosigners generation = .ok signed) :
    ∃ size signature body,
      signed.payload = slots size signature signer.key (body ++ records signed.hash cosigners) ∧
      signed.hash = sha3 (signature.bytes.take 32 ++ signer.key.bytes ++ generation.bytes ++ body)
      := by
  obtain ⟨alone, halone, hhash, hpayload⟩ := exists_of_signWith h
  obtain ⟨b, hb⟩ := toBytes_of_sign halone
  rw [sign_ok hb, Except.ok.injEq] at halone
  subst halone
  rw [extend_slots, ← hhash] at hpayload
  exact ⟨_, _, _, hpayload, hhash⟩

/-- The hash that is reported for a payload signed by one is that of the payload. If
others have signed too, it is that of the payload without their records, which are
made over it; the hash of the whole payload is taken of other bytes, and is the
reported one only if the two have the same digest. -/
theorem hash_of_payload (tx : Transaction) (signer : Signer) (cosigners : List Signer)
    (generation : Hash) :
    (∀ signed, sign tx signer generation = .ok signed →
      ∃ payload, Hex.decode signed.text = .ok payload ∧
        transactionHash payload generation = .ok signed.hash) ∧
    (∀ signed, signWith tx signer cosigners generation = .ok signed →
      ∃ payload front, Hex.decode signed.text = .ok payload ∧
        payload = front ++ records signed.hash cosigners ∧
        transactionHash front generation = .ok signed.hash ∧
        (cosigners = [] → transactionHash payload generation = .ok signed.hash) ∧
        (hashInput payload generation = hashInput front generation ↔ cosigners = []) ∧
        (transactionHash payload generation = .ok signed.hash ↔
          sha3 (hashInput payload generation) = sha3 (hashInput front generation))) := by
  refine ⟨fun signed h => ?_, fun signed h => ?_⟩
  · obtain ⟨b, hb⟩ := toBytes_of_sign h
    rw [sign_ok hb, Except.ok.injEq] at h
    subst h
    exact ⟨_, Hex.decode_encode _, transactionHash_slots _ _ _ _ _⟩
  · obtain ⟨size, signature, body, hpayload, hhash⟩ := slots_of_signWith h
    have hsplit : signed.payload =
        slots size signature signer.key body ++ records signed.hash cosigners := by
      rw [hpayload, slots, slots, List.append_assoc _ body]
    have hfront : transactionHash (slots size signature signer.key body) generation =
        .ok signed.hash := by
      rw [transactionHash_slots, hhash]
    refine ⟨signed.payload, _, Hex.decode_encode _, hsplit, hfront, ?_, ?_, ?_⟩
    · intro hnone
      rw [hsplit, hnone, records_eq_nil_iff.2 rfl, List.append_nil, hfront]
    · rw [hpayload, hashInput_slots, hashInput_slots, ← List.append_assoc,
        List.append_right_eq_self, records_eq_nil_iff]
    · rw [hpayload, transactionHash_slots, hhash, hashInput_slots, hashInput_slots,
        Except.ok.injEq]

/-- Someone whose signatures mix their key into the hash of the message, in front of
it and behind it. -/
def mixing (key : Key) : Signer where
  key := key
  sign message := ⟨(sha3 (key.bytes ++ message)).bytes ++ (sha3 (message ++ key.bytes)).bytes,
    by rw [List.length_append, Octets.length_bytes, Octets.length_bytes]⟩

/-- Who signs the aggregate itself. -/
def initiator : Signer :=
  mixing echo.key

/-- Who agrees to the aggregate. -/
def cosigner : Signer :=
  mixing ⟨List.replicate 32 7, rfl⟩

theorem exists_sign_bonded : ∃ alone,
    sign (bonded [join]) initiator (.zero 32) = .ok alone ∧ alone.payload.length = 200 := by
  have hb := bonded_join_toBytes join.header
  exact ⟨_, sign_ok hb _ _, length_sign hb (sign_ok hb _ _)⟩

theorem signWith_bonded {alone : SignedTransaction}
    (halone : sign (bonded [join]) initiator (.zero 32) = .ok alone)
    (hlen : alone.payload.length = 200) :
    signWith (bonded [join]) initiator [cosigner] (.zero 32) =
      .ok { alone with payload := extend alone.payload (records alone.hash [cosigner]) } := by
  refine signWith_ok rfl halone ?_ _ ?_
  · rw [hlen]
    decide
  · rw [hlen]
    decide

theorem hash_of_payload_bonded : ∃ alone joint payload front,
    sign (bonded [join]) initiator (.zero 32) = .ok alone ∧
    transactionHash alone.payload (.zero 32) = .ok alone.hash ∧
    signWith (bonded [join]) initiator [cosigner] (.zero 32) = .ok joint ∧
    Hex.decode joint.text = .ok payload ∧ payload = front ++ records joint.hash [cosigner] ∧
    transactionHash front (.zero 32) = .ok joint.hash ∧
    hashInput payload (.zero 32) ≠ hashInput front (.zero 32) := by
  obtain ⟨alone, halone, hlen⟩ := exists_sign_bonded
  have hjoint := signWith_bonded halone hlen
  obtain ⟨hsign, hsignWith⟩ :=
    hash_of_payload (bonded [join]) initiator [cosigner] (.zero 32)
  obtain ⟨payload, hpayload, hhash⟩ := hsign alone halone
  obtain ⟨payload', front, htext, hsplit, hfront, _, hinput, _⟩ := hsignWith _ hjoint
  cases (Hex.decode_encode alone.payload).symm.trans hpayload
  exact ⟨alone, _, payload', front, halone, hhash, hjoint, htext, hsplit, hfront,
    fun h => List.cons_ne_nil _ _ (hinput.1 h)⟩

/-- The two hashes of an aggregate of one join that one other has agreed to. -/
theorem hash_of_joint_payload_ne : ∃ joint payload,
    signWith (bonded [join]) initiator [cosigner] (.zero 32) = .ok joint ∧
    Hex.decode joint.text = .ok payload ∧
    transactionHash payload (.zero 32) ≠ .ok joint.hash := by
  have hb := bonded_join_toBytes join.header
  have halone := sign_ok hb initiator (.zero 32)
  refine ⟨_, _, signWith_bonded halone (length_sign hb halone), Hex.decode_encode _, ?_⟩
  rw [extend_slots, transactionHash_slots, ne_eq, Except.ok.injEq]
  decide +kernel

end Signing

end DriveChain
