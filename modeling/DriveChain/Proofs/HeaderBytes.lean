import DriveChain.Proofs.NormalForm
import DriveChain.Proofs.Reader

/-!
# Headers are read back in normal form

The two readers of headers accept the headers in normal form and nothing else,
in the bytes that the two writers give them. The normal form is forced by what
the bytes leave out: of a packed version only three bytes are the version's, and
an all-zero key or signature cannot be told from an absent one. Conversely the
writers do not notice whether a header is in normal form.
-/

namespace DriveChain

/-! ## Types and networks have their codes -/

theorem TransactionType.ofCode_ok {code : UInt16} {type : TransactionType} :
    ofCode code = .ok type ↔ code = type.code := by
  refine ⟨fun h => ?_, fun h => ?_⟩
  · unfold ofCode at h
    split at h
    · next t ht =>
        cases h
        have hcode := List.find?_some ht
        exact (eq_of_beq hcode).symm
    · cases h
  · subst h
    cases type <;> rfl

theorem Network.ofByte_ok {byte : UInt8} {network : Network} :
    ofByte byte = .ok network ↔ byte = network.byte := by
  refine ⟨fun h => ?_, fun h => ?_⟩
  · unfold ofByte at h
    split at h
    · next n hn =>
        cases h
        have hbyte := List.find?_some hn
        exact (eq_of_beq hbyte).symm
    · cases h
  · subst h
    cases network <;> rfl

theorem toNat_packVersion (network : Network) (version : UInt32) :
    (packVersion network version).toNat =
      network.byte.toNat * 0x1000000 + version.toNat % 0x1000000 := by
  have hbyte := network.byte.toNat_lt
  rw [packVersion, UInt32.toNat_ofNat_of_lt']
  simp only [UInt32.size]
  omega

/-- A packed version is on a network just if it is some version packed for it. -/
theorem Network.ofPacked_ok {packed : UInt32} {network : Network} :
    ofPacked packed = .ok network ↔
      packed = packVersion network (unpackVersion packed) := by
  have hlt := packed.toNat_lt
  have hbyte := network.byte.toNat_lt
  rw [ofPacked, ofByte_ok, ← UInt8.toNat_inj, ← UInt32.toNat_inj, toNat_packVersion,
    toNat_unpackVersion, UInt8.toNat_ofNat']
  omega

@[simp] theorem unpackVersion_packVersion (network : Network) (version : UInt32) :
    unpackVersion (packVersion network version) = unpackVersion version := by
  rw [← UInt32.toNat_inj, toNat_unpackVersion, toNat_unpackVersion, toNat_packVersion]
  omega

@[simp] theorem packVersion_unpackVersion (network : Network) (version : UInt32) :
    packVersion network (unpackVersion version) = packVersion network version := by
  rw [← UInt32.toNat_inj, toNat_packVersion, toNat_packVersion, toNat_unpackVersion]
  omega

namespace Header

/-! ## Writing does not notice the normal form -/

@[simp] theorem packedVersion_normal (h : Header) :
    h.normal.packedVersion = h.packedVersion :=
  packVersion_unpackVersion h.network h.version

@[simp] theorem signerKey_normal (h : Header) : h.normal.signerKey = h.signerKey :=
  signerKey_of_signer h.signer_normal

@[simp] theorem signatureOctets_normal (h : Header) :
    h.normal.signatureOctets = h.signatureOctets := by
  unfold signatureOctets normal
  cases h.signature with
  | none => rfl
  | some s => exact Octets.getD_nonzero? s

@[simp] theorem identityBytes_normal (h : Header) :
    h.normal.identityBytes = h.identityBytes := by
  unfold identityBytes
  rw [signerKey_normal, packedVersion_normal]
  rfl

theorem bytes_normal (h : Header) (size : Nat) : h.normal.bytes size = h.bytes size := by
  unfold bytes
  rw [identityBytes_normal, signatureOctets_normal]
  rfl

theorem embeddedBytes_normal (h : Header) (size : Nat) :
    h.normal.embeddedBytes size = h.embeddedBytes size := by
  unfold embeddedBytes
  rw [identityBytes_normal]

/-! ## The bytes of a header -/

theorem sizeBytes_ok {size : Nat} {b : List UInt8} :
    sizeBytes size = .ok b ↔ size < UInt32.size ∧ b = bytes32 (UInt32.ofNat size) := by
  unfold sizeBytes
  split
  · next hlt => simp [hlt, eq_comm]
  · next hlt => simp [hlt]

theorem bytes_ok {h : Header} {size : Nat} {b : List UInt8} :
    h.bytes size = .ok b ↔ size < UInt32.size ∧
      b = bytes32 (UInt32.ofNat size) ++ h.signatureOctets.bytes ++ h.identityBytes ++
        bytes64 h.maxFee ++ bytes64 h.deadline := by
  unfold bytes
  by_cases hlt : size < UInt32.size
  · rw [sizeBytes_ok.2 ⟨hlt, rfl⟩]
    simp [hlt, eq_comm]
  · cases hsize : sizeBytes size with
    | error e => simp [hlt]
    | ok front => exact absurd (sizeBytes_ok.1 hsize).1 hlt

theorem embeddedBytes_ok {h : Header} {size : Nat} {b : List UInt8} :
    h.embeddedBytes size = .ok b ↔ size < UInt32.size ∧
      b = bytes32 (UInt32.ofNat size) ++ h.identityBytes := by
  unfold embeddedBytes
  by_cases hlt : size < UInt32.size
  · rw [sizeBytes_ok.2 ⟨hlt, rfl⟩]
    simp [hlt, eq_comm]
  · cases hsize : sizeBytes size with
    | error e => simp [hlt]
    | ok front => exact absurd (sizeBytes_ok.1 hsize).1 hlt

theorem length_identityBytes (h : Header) : h.identityBytes.length = 38 := by
  unfold identityBytes
  rw [List.length_append, List.length_append, h.signerKey.length_bytes, length_bytes32,
    length_bytes16]

theorem length_bytes {h : Header} {size : Nat} {b : List UInt8}
    (hb : h.bytes size = .ok b) : b.length = Layout.headerSize := by
  obtain ⟨_, rfl⟩ := bytes_ok.1 hb
  simp only [List.length_append, length_bytes32, length_bytes64, length_identityBytes,
    h.signatureOctets.length_bytes]
  rfl

theorem length_embeddedBytes {h : Header} {size : Nat} {b : List UInt8}
    (hb : h.embeddedBytes size = .ok b) : b.length = Layout.embeddedHeaderSize := by
  obtain ⟨_, rfl⟩ := embeddedBytes_ok.1 hb
  rw [List.length_append, length_bytes32, length_identityBytes]
  rfl

/-! ## Reading -/

open Reader

theorem readSize_ok {available : Nat} {u : Unit} {c c' : Cursor} :
    readSize available c = .ok u c' ↔
      available < UInt32.size ∧ c.Passes (bytes32 (UInt32.ofNat available)) c' := by
  simp only [readSize, bind_ok, word32_ok]
  refine ⟨fun h => ?_, fun h => ?_⟩
  · obtain ⟨announced, c₁, hpass, hread⟩ := h
    split at hread
    · next heq =>
        obtain ⟨_, rfl⟩ := pure_ok.1 hread
        rw [← heq, UInt32.ofNat_toNat]
        exact ⟨announced.toNat_lt, hpass⟩
    · exact (throw_ok.1 hread).elim
  · obtain ⟨hlt, hpass⟩ := h
    refine ⟨_, c', hpass, ?_⟩
    rw [if_pos (UInt32.toNat_ofNat_of_lt' hlt)]
    exact pure_ok.2 ⟨rfl, rfl⟩

/-- What both forms of a header share is read in normal form. -/
theorem readIdentity_ok {signer : Option Account} {network : Network} {version : UInt32}
    {type : TransactionType} {c c' : Cursor} :
    readIdentity c = .ok (signer, network, version, type) c' ↔
      ∃ key : Key, signer = key.nonzero?.map (Account.ofKey · network) ∧
        version.toNat < 0x1000000 ∧
        c.Passes (key.bytes ++ bytes32 (packVersion network version) ++
          bytes16 type.code) c' := by
  simp only [readIdentity, bind_ok, octets_ok, word32_ok, word16_ok,
    Cursor.passes_append]
  refine ⟨fun h => ?_, fun h => ?_⟩
  · obtain ⟨key, c₁, hkey, packed, c₂, hpacked, code, c₃, hcode, hread⟩ := h
    cases htype : TransactionType.ofCode code with
    | error e =>
        rw [htype] at hread
        exact (throw_ok.1 hread).elim
    | ok type' =>
        rw [htype] at hread
        cases hnetwork : Network.ofPacked packed with
        | error e =>
            simp only [hnetwork] at hread
            exact (throw_ok.1 hread).elim
        | ok network' =>
            simp only [hnetwork, pure_ok, Prod.mk.injEq] at hread
            obtain ⟨⟨rfl, rfl, rfl, rfl⟩, rfl⟩ := hread
            refine ⟨key, rfl, ?_, c₂, ⟨c₁, hkey, ?_⟩, ?_⟩
            · rw [toNat_unpackVersion]
              exact Nat.mod_lt _ (by decide)
            · rw [← Network.ofPacked_ok.1 hnetwork]
              exact hpacked
            · rw [← TransactionType.ofCode_ok.1 htype]
              exact hcode
  · obtain ⟨key, rfl, hversion, c₂, ⟨c₁, hkey, hpacked⟩, hcode⟩ := h
    have hunpack : unpackVersion (packVersion network version) = version := by
      rw [unpackVersion_packVersion, unpackVersion_eq_self]
      exact hversion
    have hnetwork : Network.ofPacked (packVersion network version) = .ok network := by
      rw [Network.ofPacked_ok, hunpack]
    have htype : TransactionType.ofCode type.code = .ok type :=
      TransactionType.ofCode_ok.2 rfl
    refine ⟨key, c₁, hkey, _, c₂, hpacked, _, c', hcode, ?_⟩
    -- The network is looked up first: reducing the match on the look-up itself
    -- would have the third byte counted out.
    rw [htype]
    generalize Network.ofPacked (packVersion network version) = found at hnetwork ⊢
    subst hnetwork
    exact pure_ok.2 ⟨by rw [hunpack], rfl⟩

theorem read_ok {available : Nat} {h : Header} {c c' : Cursor} :
    read available c = .ok h c' ↔ h.IsNormal ∧ h.info = none ∧
      ∃ b, h.bytes available = .ok b ∧ c.Passes b c' := by
  simp only [read, bind_ok, octets_ok, readSize_ok]
  refine ⟨fun h => ?_, fun h => ?_⟩
  · obtain ⟨_, c₁, ⟨hlt, hsize⟩, signature, c₂, hsignature,
      ⟨signer, network, version, type⟩, c₃, hidentity, hrest⟩ := h
    simp only [word64_ok, pure_ok] at hrest
    obtain ⟨fee, c₄, hfee, deadline, c₅, hdeadline, rfl, rfl⟩ := hrest
    obtain ⟨key, rfl, hversion, hpass⟩ := readIdentity_ok.1 hidentity
    refine ⟨isNormal_of_read (some key) (some signature) hversion rfl rfl, rfl, _, bytes_ok.2 ⟨hlt, rfl⟩, ?_⟩
    rw [identityBytes, signerKey_of_signer rfl, signatureOctets, Octets.getD_nonzero?]
    simp only [Cursor.passes_append] at hpass ⊢
    exact ⟨c₄, ⟨c₃, ⟨c₂, ⟨c₁, hsize, hsignature⟩, hpass⟩, hfee⟩, hdeadline⟩
  · obtain ⟨hnormal, hinfo, b, hb, hpass⟩ := h
    obtain ⟨hlt, rfl⟩ := bytes_ok.1 hb
    simp only [Cursor.passes_append] at hpass
    obtain ⟨c₄, ⟨c₃, ⟨c₂, ⟨c₁, hsize, hsignature⟩, hpass⟩, hfee⟩, hdeadline⟩ := hpass
    have hself := normal_eq_self hnormal
    have hsigner := h.signer_normal
    have hsig := h.signature_normal
    rw [hself] at hsigner hsig
    have hidentity := readIdentity_ok.2 ⟨h.signerKey, hsigner, hnormal.version, hpass⟩
    refine ⟨(), c₁, ⟨hlt, hsize⟩, h.signatureOctets, c₂, hsignature, _, c₃, hidentity, ?_⟩
    simp only [word64_ok, pure_ok]
    refine ⟨_, c₄, hfee, _, c', hdeadline, ?_, rfl⟩
    rw [← hsig]
    exact unreported_eq_self hinfo

theorem readEmbedded_ok {available : Nat} {h : Header} {c c' : Cursor} :
    readEmbedded available c = .ok h c' ↔ h.IsNormal ∧ h.IsEmbedded ∧
      ∃ b, h.embeddedBytes available = .ok b ∧ c.Passes b c' := by
  simp only [readEmbedded, bind_ok, readSize_ok]
  refine ⟨fun h => ?_, fun h => ?_⟩
  · obtain ⟨_, c₁, ⟨hlt, hsize⟩, ⟨signer, network, version, type⟩, c₂, hidentity, hrest⟩ := h
    obtain ⟨rfl, rfl⟩ := pure_ok.1 hrest
    obtain ⟨key, rfl, hversion, hpass⟩ := readIdentity_ok.1 hidentity
    refine ⟨isNormal_of_read (some key) none hversion rfl rfl, ⟨rfl, rfl, rfl, rfl⟩,
      _, embeddedBytes_ok.2 ⟨hlt, rfl⟩, ?_⟩
    rw [identityBytes, signerKey_of_signer rfl]
    exact Cursor.passes_append.2 ⟨c₁, hsize, hpass⟩
  · obtain ⟨hnormal, hembedded, b, hb, hpass⟩ := h
    obtain ⟨hlt, rfl⟩ := embeddedBytes_ok.1 hb
    obtain ⟨c₁, hsize, hpass⟩ := Cursor.passes_append.1 hpass
    have hsigner := h.signer_normal
    rw [normal_eq_self hnormal] at hsigner
    have hidentity := readIdentity_ok.2 ⟨h.signerKey, hsigner, hnormal.version, hpass⟩
    refine ⟨(), c₁, ⟨hlt, hsize⟩, _, c', hidentity, pure_ok.2 ⟨?_, rfl⟩⟩
    exact embedded_eq_self hembedded

end Header

end DriveChain
