import DriveChain.Proofs.WireForms
import DriveChain.Transaction.Signing

/-!
# Signing fills two slots

The bytes of a transaction are its size, its signature, its signer's key and what
is signed. Signing leaves the first and the last alone and fills the other two, so
what they held before does not matter: transactions that differ in no more than
signer, signature and report are signed alike, and signing again is signing anew.

The new bytes are those that the transaction has with the new signer and signature
in its header. Since readers accept just what is written, that is also what they
are read as.
-/

namespace DriveChain

/-! ## Slots -/

/-- A size, a signature, a key and what is signed, in the order in which they are
written. -/
def slots (size : Nat) (signature : Signature) (key : Key) (signed : List UInt8) :
    List UInt8 :=
  bytes32 (UInt32.ofNat size) ++ signature.bytes ++ key.bytes ++ signed

/-- What bytes have at the offsets of the slots. -/
structure HasSlots (payload : List UInt8) (size : Nat) (signature : Signature) (key : Key)
    (signed : List UInt8) : Prop where
  length : payload.length = size
  size : LittleEndian.value (payload.take 4) = size
  signature : (payload.drop 4).take 64 = signature.bytes
  signer : (payload.drop 68).take 32 = key.bytes
  signed : payload.drop 100 = signed

section Slots

variable (size : Nat) (signature : Signature) (key : Key) (signed : List UInt8)

theorem length_slots : (slots size signature key signed).length = 100 + signed.length := by
  simp only [slots, List.length_append, length_bytes32, signature.length_bytes,
    key.length_bytes]

theorem take_size_slots :
    (slots size signature key signed).take 4 = bytes32 (UInt32.ofNat size) := by
  rw [slots, List.append_assoc, List.append_assoc]
  exact List.take_left' (length_bytes32 _)

theorem drop_size_slots :
    (slots size signature key signed).drop 4 = signature.bytes ++ (key.bytes ++ signed) := by
  rw [slots, List.append_assoc, List.append_assoc]
  exact List.drop_left' (length_bytes32 _)

theorem drop_signature_slots :
    (slots size signature key signed).drop 68 = key.bytes ++ signed := by
  rw [slots, List.append_assoc]
  refine List.drop_left' ?_
  rw [List.length_append, length_bytes32, signature.length_bytes]

theorem drop_signer_slots : (slots size signature key signed).drop 100 = signed := by
  refine List.drop_left' ?_
  rw [List.length_append, List.length_append, length_bytes32, signature.length_bytes,
    key.length_bytes]

theorem hasSlots_slots (hsize : size < UInt32.size) (hlen : size = 100 + signed.length) :
    HasSlots (slots size signature key signed) size signature key signed where
  length := by rw [length_slots, hlen]
  size := by rw [take_size_slots, value_bytes32_ofNat hsize]
  signature := by rw [drop_size_slots, List.take_left' signature.length_bytes]
  signer := by rw [drop_signature_slots, List.take_left' key.length_bytes]
  signed := drop_signer_slots size signature key signed

end Slots

namespace Header

/-- The bytes of a header that a signature is made over. -/
def signedBytes (h : Header) : List UInt8 :=
  bytes32 h.packedVersion ++ bytes16 h.type.code ++ bytes64 h.maxFee ++ bytes64 h.deadline

/-- The header without signer and signature, and without what a node has reported. -/
def unsigned (h : Header) : Header :=
  { h with signer := none, signature := none, info := none }

theorem signed_of_unsigned {h h' : Header} (heq : h.unsigned = h'.unsigned) :
    h.signedBytes = h'.signedBytes ∧ h.type = h'.type := by
  have hbytes := congrArg signedBytes heq
  have htype := congrArg type heq
  exact ⟨hbytes, htype⟩

/-- The header with the signer and the signature that bytes hold; zeros stand for
none. -/
def signedBy (h : Header) (key : Key) (signature : Signature) : Header :=
  { h with
    signer := key.nonzero?.map (Account.ofKey · h.network)
    signature := signature.nonzero? }

@[simp] theorem signerKey_signedBy (h : Header) (key : Key) (signature : Signature) :
    (h.signedBy key signature).signerKey = key :=
  signerKey_of_signer rfl

@[simp] theorem signatureOctets_signedBy (h : Header) (key : Key) (signature : Signature) :
    (h.signedBy key signature).signatureOctets = signature :=
  signature.getD_nonzero?

theorem signedBy_isNormal {h : Header} (hn : h.IsNormal) (key : Key)
    (signature : Signature) : (h.signedBy key signature).IsNormal :=
  isNormal_of_read (some key) (some signature) hn.version rfl rfl

end Header

namespace Transaction

/-! ## Headers in their transactions -/

section WithHeader

variable (tx : Transaction) (h : Header)

@[simp] theorem header_withHeader : (tx.withHeader h).header = h := by
  cases tx <;> rfl

@[simp] theorem shape_withHeader : (tx.withHeader h).shape = tx.shape := by
  cases tx <;> rfl

@[simp] theorem inner_withHeader : (tx.withHeader h).inner = tx.inner := by
  cases tx <;> rfl

@[simp] theorem accounts_withHeader : (tx.withHeader h).accounts = tx.accounts := by
  cases tx <;> rfl

@[simp] theorem size_withHeader : (tx.withHeader h).size = tx.size := by
  cases tx <;> rw [withHeader, size, size]

@[simp] theorem payloadBytes_withHeader :
    (tx.withHeader h).payloadBytes = tx.payloadBytes := by
  cases tx <;> rw [withHeader, payloadBytes, payloadBytes]

end WithHeader

/-- The transaction without a signer and a signature. -/
def unsigned (tx : Transaction) : Transaction :=
  tx.withHeader tx.header.unsigned

/-- The transaction with a key for its signer, and a signature. -/
def signedBy (tx : Transaction) (key : Key) (signature : Signature) : Transaction :=
  tx.withHeader (tx.header.signedBy key signature)

/-- Transactions that differ in no more than that are each other with another
header. -/
theorem eq_withHeader_of_unsigned {tx other : Transaction}
    (h : other.unsigned = tx.unsigned) : other = tx.withHeader other.header := by
  have hself : other = other.unsigned.withHeader other.header := by
    cases other <;> rfl
  rw [h] at hself
  cases tx <;> exact hself

theorem unsigned_signedBy (tx : Transaction) (key : Key) (signature : Signature) :
    (tx.signedBy key signature).unsigned = tx.unsigned := by
  cases tx <;> rfl

/-! ## Bytes, slot by slot -/

theorem toBytes_slots {tx : Transaction} {b : List UInt8} :
    tx.toBytes = .ok b ↔ tx.size < UInt32.size ∧ ∃ body, tx.payloadBytes = .ok body ∧
      b = slots tx.size tx.header.signatureOctets tx.header.signerKey
        (tx.header.signedBytes ++ body) := by
  have hsplit : ∀ body, bytes32 (UInt32.ofNat tx.size) ++ tx.header.signatureOctets.bytes ++
      tx.header.identityBytes ++ bytes64 tx.header.maxFee ++ bytes64 tx.header.deadline ++
      body = slots tx.size tx.header.signatureOctets tx.header.signerKey
        (tx.header.signedBytes ++ body) := by
    intro body
    simp only [slots, Header.identityBytes, Header.signedBytes, List.append_assoc]
  rw [toBytes_ok]
  constructor
  · intro h
    obtain ⟨front, body, hfront, hbody, rfl⟩ := h
    obtain ⟨hlt, rfl⟩ := Header.bytes_ok.1 hfront
    exact ⟨hlt, body, hbody, hsplit body⟩
  · intro h
    obtain ⟨hlt, body, hbody, rfl⟩ := h
    exact ⟨_, body, Header.bytes_ok.2 ⟨hlt, rfl⟩, hbody, (hsplit body).symm⟩

theorem size_of_signable {tx : Transaction} {b : List UInt8} (hb : tx.toBytes = .ok b) :
    tx.size = 100 + (b.drop 100).length := by
  have hsize := headerSize_le_size tx
  rw [List.length_drop, length_toBytes hb]
  rw [Layout.headerSize] at hsize
  omega

theorem signableBytes_ok {tx : Transaction} {b : List UInt8} (hb : tx.toBytes = .ok b) :
    tx.signableBytes = .ok (b.drop 100) := by
  rw [signableBytes, hb]
  rfl

/-- With a header that agrees in all that is signed, a transaction has the same
bytes but for the two slots. -/
theorem toBytes_withHeader {tx : Transaction} {b : List UInt8} (h : Header)
    (hb : tx.toBytes = .ok b) (hsigned : h.signedBytes = tx.header.signedBytes) :
    (tx.withHeader h).toBytes =
      .ok (slots tx.size h.signatureOctets h.signerKey (b.drop 100)) := by
  obtain ⟨hlt, body, hbody, rfl⟩ := toBytes_slots.1 hb
  rw [drop_signer_slots, toBytes_slots, header_withHeader, size_withHeader,
    payloadBytes_withHeader, hsigned]
  exact ⟨hlt, body, hbody, rfl⟩

theorem toBytes_signedBy {tx : Transaction} {b : List UInt8} (hb : tx.toBytes = .ok b)
    (key : Key) (signature : Signature) :
    (tx.signedBy key signature).toBytes = .ok (slots tx.size signature key (b.drop 100)) := by
  have hbytes := toBytes_withHeader (tx.header.signedBy key signature) hb rfl
  rw [Header.signatureOctets_signedBy, Header.signerKey_signedBy] at hbytes
  exact hbytes

/-- What was read from bytes is read with another signer and signature from the bytes
that have these in their slots. -/
theorem ofBytes_signedBy {tx : Transaction} {b : List UInt8} (h : ofBytes b = .ok tx)
    (key : Key) (signature : Signature) :
    ofBytes (slots tx.size signature key (b.drop 100)) = .ok (tx.signedBy key signature) := by
  obtain ⟨hcarried, hb⟩ := ofBytes_ok.1 h
  obtain ⟨htype, hheader, hinfo, haccounts, hparts⟩ := wellTyped_and_isCarried.1 hcarried
  refine ofBytes_ok.2 ⟨wellTyped_and_isCarried.2 ?_, toBytes_signedBy hb key signature⟩
  rw [type, signedBy, header_withHeader, shape_withHeader, accounts_withHeader,
    inner_withHeader]
  exact ⟨htype, Header.signedBy_isNormal hheader key signature, hinfo, haccounts, hparts⟩

theorem size_and_type_of_toBytes {tx tx' : Transaction} {b : List UInt8}
    (hb : tx.toBytes = .ok b) (hb' : tx'.toBytes = .ok b) :
    tx'.size = tx.size ∧ tx'.type = tx.type := by
  have htype := declaredType_of_toBytes hb
  rw [declaredType_of_toBytes hb'] at htype
  rw [← length_toBytes hb, ← length_toBytes hb']
  exact ⟨rfl, Except.ok.inj htype⟩

/-- The bytes of a transaction with another signer and signature in their slots. -/
theorem ofBytes_slots {tx : Transaction} {b : List UInt8} (htyped : tx.WellTyped)
    (hb : tx.toBytes = .ok b) (key : Key) (signature : Signature) :
    ofBytes (slots tx.size signature key (b.drop 100)) =
      .ok (tx.normal.carried.signedBy key signature) := by
  have hbytes := toBytes_normal_carried htyped hb
  rw [← (size_and_type_of_toBytes hb hbytes).1]
  exact ofBytes_signedBy (ofBytes_of_toBytes htyped hb) key signature

end Transaction

namespace Signing

open Transaction

/-! ## Signing -/

variable {tx : Transaction} {b : List UInt8}

theorem signPayload_slots (size : Nat) (signature : Signature) (key : Key)
    (signed : List UInt8) (signer : Signer) (generation : Hash) :
    signPayload (slots size signature key signed) signer generation =
      slots size (signer.sign (generation.bytes ++ signed)) signer.key signed := by
  have htake : (slots size signature key signed).take Layout.signatureOffset =
    bytes32 (UInt32.ofNat size) := take_size_slots size signature key signed
  have hdrop : (slots size signature key signed).drop Layout.signableOffset = signed :=
    drop_signer_slots size signature key signed
  unfold signPayload
  simp only []
  rw [htake, hdrop]
  rfl

/-- Of the slots, the hash takes the first half of the signature, the key and what is
signed. -/
theorem hashInput_slots (size : Nat) (signature : Signature) (key : Key)
    (signed : List UInt8) (generation : Hash) :
    hashInput (slots size signature key signed) generation =
      signature.bytes.take 32 ++ key.bytes ++ generation.bytes ++ signed := by
  have hhalf : 32 ≤ signature.bytes.length := by
    rw [signature.length_bytes]
    decide
  rw [hashInput, Layout.signableOffset, Layout.signatureOffset, Layout.signerOffset,
    drop_size_slots, drop_signature_slots, drop_signer_slots,
    List.take_append_of_le_length hhalf, List.take_left' key.length_bytes]

theorem transactionHash_slots (size : Nat) (signature : Signature) (key : Key)
    (signed : List UInt8) (generation : Hash) :
    transactionHash (slots size signature key signed) generation =
      .ok (sha3 (signature.bytes.take 32 ++ key.bytes ++ generation.bytes ++ signed)) := by
  unfold transactionHash
  rw [length_slots, Layout.signableOffset, if_neg (by omega), hashInput_slots]

/-- What signing makes of a transaction that has bytes. -/
theorem sign_ok (hb : tx.toBytes = .ok b) (signer : Signer) (generation : Hash) :
    sign tx signer generation = .ok {
      type := tx.type
      payload := slots tx.size (signer.sign (generation.bytes ++ b.drop 100)) signer.key
        (b.drop 100)
      hash := sha3 ((signer.sign (generation.bytes ++ b.drop 100)).bytes.take 32 ++
        signer.key.bytes ++ generation.bytes ++ b.drop 100) } := by
  obtain ⟨_, body, _, rfl⟩ := toBytes_slots.1 hb
  rw [sign, hb]
  simp only [signPayload_slots, transactionHash_slots, drop_signer_slots]

theorem length_sign {signer : Signer} {generation : Hash} {signed : SignedTransaction}
    (hb : tx.toBytes = .ok b) (h : sign tx signer generation = .ok signed) :
    signed.payload.length = tx.size := by
  rw [sign_ok hb, Except.ok.injEq] at h
  rw [← h, length_slots, size_of_signable hb]

/-- Signed, a transaction is read as it is read unsigned, but for the new signer and
signature. -/
theorem exists_sign (htyped : tx.WellTyped) (hb : tx.toBytes = .ok b) (signer : Signer)
    (generation : Hash) : ∃ signed signature, sign tx signer generation = .ok signed ∧
      ofBytes signed.payload = .ok (tx.normal.carried.signedBy signer.key signature) :=
  ⟨_, _, sign_ok hb signer generation, ofBytes_slots htyped hb _ _⟩

/-- Transactions that have the same bytes to be signed are signed alike. -/
theorem sign_congr {tx' : Transaction} {b' : List UInt8} (hb : tx.toBytes = .ok b)
    (hb' : tx'.toBytes = .ok b') (htype : tx'.type = tx.type) (hsize : tx'.size = tx.size)
    (hsigned : b'.drop 100 = b.drop 100) (signer : Signer) (generation : Hash) :
    sign tx' signer generation = sign tx signer generation := by
  rw [sign_ok hb, sign_ok hb', hsigned, hsize, htype]

/-- Neither signer nor signature nor report make a difference. -/
theorem sign_of_unsigned {other : Transaction} (hb : tx.toBytes = .ok b)
    (h : other.unsigned = tx.unsigned) (signer : Signer) (generation : Hash) :
    sign other signer generation = sign tx signer generation := by
  have hheader : other.header.unsigned = tx.header.unsigned := by
    have hheader := congrArg header h
    rw [unsigned, unsigned, header_withHeader, header_withHeader] at hheader
    exact hheader
  obtain ⟨hsigned, htype⟩ := Header.signed_of_unsigned hheader
  have hother : other.toBytes = .ok (slots tx.size other.header.signatureOctets
      other.header.signerKey (b.drop 100)) := by
    have hbytes := toBytes_withHeader other.header hb hsigned
    rw [← eq_withHeader_of_unsigned h] at hbytes
    exact hbytes
  refine sign_congr hb hother htype ?_ (drop_signer_slots _ _ _ _) signer generation
  rw [eq_withHeader_of_unsigned h, size_withHeader]

/-- A signed transaction has its size, the signature, the signer's key and what is
signed in their slots; another signer, signature or report would have made no
difference. It is read as the transaction that was to be signed is, but for signer
and signature, and each of the three is signed like the others. -/
theorem sign_fills_slots (hb : tx.toBytes = .ok b) (signer : Signer) (generation : Hash) :
    ∃ signed payload body, sign tx signer generation = .ok signed ∧
      Hex.decode signed.text = .ok payload ∧ tx.signableBytes = .ok body ∧
      HasSlots payload tx.size (signer.sign (generation.bytes ++ payload.drop 100))
        signer.key body ∧
      transactionHash payload generation = .ok signed.hash ∧ signed.type = tx.type ∧
      (∀ other : Transaction, other.unsigned = tx.unsigned →
        sign other signer generation = .ok signed) ∧
      (tx.WellTyped → ∃ read, ofBytes b = .ok read ∧
        read.header.network = tx.header.network ∧
        ofBytes payload = .ok (read.signedBy signer.key
          (signer.sign (generation.bytes ++ payload.drop 100))) ∧
        ∀ signer' generation', sign read signer' generation' = sign tx signer' generation' ∧
          sign (read.signedBy signer.key (signer.sign (generation.bytes ++ payload.drop 100)))
            signer' generation' = sign tx signer' generation') := by
  obtain ⟨hlt, _⟩ := toBytes_slots.1 hb
  have hsign := sign_ok hb signer generation
  refine ⟨_, _, _, hsign, Hex.decode_encode _, signableBytes_ok hb, ?_,
    transactionHash_slots _ _ _ _ _, rfl, ?_, ?_⟩
  · rw [drop_signer_slots]
    exact hasSlots_slots _ _ _ _ hlt (size_of_signable hb)
  · intro other hother
    rw [sign_of_unsigned hb hother, hsign]
  · intro htyped
    rw [drop_signer_slots]
    have hbytes := toBytes_normal_carried htyped hb
    obtain ⟨hsize, htype⟩ := size_and_type_of_toBytes hb hbytes
    refine ⟨tx.normal.carried, ofBytes_of_toBytes htyped hb, network_normal_carried tx,
      ofBytes_slots htyped hb _ _, ?_⟩
    intro signer' generation'
    have hsame := sign_congr hb hbytes htype hsize rfl signer' generation'
    refine ⟨hsame, ?_⟩
    rw [sign_of_unsigned hbytes (unsigned_signedBy _ _ _), hsame]

/-- Someone whose signatures are the hash of the message, twice. -/
def echo : Signer where
  key := ⟨List.replicate 32 9, rfl⟩
  sign message := ⟨(sha3 message).bytes ++ (sha3 message).bytes, by
    rw [List.length_append, (sha3 message).length_bytes]⟩

theorem sign_fills_slots_unkempt : ∃ (signed : SignedTransaction) (payload : List UInt8)
    (read : Transaction) (signature : Signature),
    sign unkempt echo (.zero 32) = .ok signed ∧ Hex.decode signed.text = .ok payload ∧
    (payload.drop 68).take 32 = List.replicate 32 9 ∧
    ofBytes payload = .ok (read.signedBy echo.key signature) ∧
    (read.signedBy echo.key signature).header.signer = some (.ofKey echo.key .mijinTest) := by
  obtain ⟨b, hb⟩ := unkempt_toBytes
  obtain ⟨signed, payload, _, hsign, htext, _, hslots, _, _, _, hread⟩ :=
    sign_fills_slots hb echo (.zero 32)
  obtain ⟨read, _, hnetwork, hpayload, _⟩ := hread unkempt_wellTyped
  refine ⟨signed, payload, read, _, hsign, htext, hslots.signer, hpayload, ?_⟩
  have hnetwork' : read.header.network = .mijinTest := hnetwork
  rw [signedBy, header_withHeader, ← hnetwork']
  rfl

end Signing

end DriveChain
