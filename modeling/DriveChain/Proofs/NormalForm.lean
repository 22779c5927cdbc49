import DriveChain.Proofs.Octets
import DriveChain.Transaction.Basic

/-!
# What a transaction is read back as

A transaction in memory can say more than a message of it. Its version has a
top byte that gives way to the network, its signature and its signer's key may
be all zeros and then stand for none, and each of its accounts holds an address
that the message leaves to be derived from the key. `Transaction.normal` is the
transaction with all of this brought into the one form that readers give. A
document keeps the rest; bytes also drop what a node has reported and, of inner
transactions, signature, fee and deadline, and `Transaction.carried` is what
they keep.

Neither function has to be taken on trust: the transactions that the two leave
alone are described field by field in `Transaction.IsCarried`, and applying them
to any transaction gives one of those.
-/

namespace DriveChain

/-- The account of the same key on a network. -/
def Account.on (network : Network) (a : Account) : Account :=
  .ofKey a.key network

/-! ## Headers -/

@[simp] theorem toNat_unpackVersion (packed : UInt32) :
    (unpackVersion packed).toNat = packed.toNat % 0x1000000 := by
  rw [unpackVersion, UInt32.toNat_ofNat']
  omega

theorem unpackVersion_eq_self {version : UInt32} :
    unpackVersion version = version ↔ version.toNat < 0x1000000 := by
  rw [← UInt32.toNat_inj, toNat_unpackVersion]
  omega

namespace Header

/-- The header with a version of three bytes, with nothing in the place of zeros,
and with the signer derived from its key. -/
def normal (h : Header) : Header :=
  { h with
    version := unpackVersion h.version
    signer := (h.signer.bind fun a => a.key.nonzero?).map (Account.ofKey · h.network)
    signature := h.signature.bind Octets.nonzero? }

/-- The header without what a node has reported. -/
def unreported (h : Header) : Header :=
  { h with info := none }

/-- The header with no more than its embedded form holds. -/
def embedded (h : Header) : Header :=
  { h with signature := none, maxFee := 0, deadline := 0, info := none }

/-- Headers that their messages are read back as. -/
structure IsNormal (h : Header) : Prop where
  version : h.version.toNat < 0x1000000
  signer : ∀ a, h.signer = some a → a.key.isZero = false ∧ a.on h.network = a
  signature : ∀ s, h.signature = some s → s.isZero = false

/-- Headers that say no more than their embedded form. -/
structure IsEmbedded (h : Header) : Prop where
  signature : h.signature = none
  maxFee : h.maxFee = 0
  deadline : h.deadline = 0
  info : h.info = none

/-- The key of a signer that was read is the key that was read. -/
theorem signerKey_of_signer {h : Header} {key : Key} {network : Network}
    (hs : h.signer = key.nonzero?.map (Account.ofKey · network)) : h.signerKey = key := by
  unfold signerKey
  rw [hs]
  by_cases hzero : key.isZero = true
  · simp only [Octets.nonzero?, hzero, if_true, Option.map_none]
    exact (Octets.isZero_iff.1 hzero).symm
  · simp only [Octets.nonzero?, hzero, Bool.false_eq_true, if_false, Option.map_some]
    rfl

/-- The signer in normal form is the one that its key stands for. -/
theorem signer_normal (h : Header) :
    h.normal.signer = h.signerKey.nonzero?.map (Account.ofKey · h.network) := by
  unfold signerKey normal
  cases h.signer with
  | none =>
      simp only [Octets.nonzero?_zero]
      rfl
  | some a => rfl

theorem signature_normal (h : Header) :
    h.normal.signature = h.signatureOctets.nonzero? := by
  unfold signatureOctets normal
  cases h.signature with
  | none =>
      simp only [Option.getD_none, Octets.nonzero?_zero]
      rfl
  | some s => rfl

/-- A signer and a signature that are made of a key and of octets, if there are
any, are in normal form. -/
theorem isNormal_of_read {h : Header} (key : Option Key) (signature : Option Signature)
    (hversion : h.version.toNat < 0x1000000)
    (hsigner : h.signer = (key.bind Octets.nonzero?).map (Account.ofKey · h.network))
    (hsignature : h.signature = signature.bind Octets.nonzero?) : h.IsNormal where
  version := hversion
  signer := by
    intro a ha
    rw [hsigner] at ha
    obtain ⟨b, hb, rfl⟩ := Option.map_eq_some_iff.1 ha
    obtain ⟨c, _, hc⟩ := Option.bind_eq_some_iff.1 hb
    obtain ⟨hzero, rfl⟩ := Octets.nonzero?_eq_some.1 hc
    exact ⟨hzero, rfl⟩
  signature := by
    intro s hs
    rw [hsignature] at hs
    obtain ⟨c, _, hc⟩ := Option.bind_eq_some_iff.1 hs
    obtain ⟨hzero, rfl⟩ := Octets.nonzero?_eq_some.1 hc
    exact hzero

/-- New headers have neither a signer nor a signature. -/
theorem new_isNormal (type : TransactionType) (network : Network) (deadline : Deadline) :
    (Header.new type network deadline).IsNormal := by
  refine ⟨?_, fun a ha => (by cases ha), fun s hs => (by cases hs)⟩
  show (TransactionType.version type).toNat < 0x1000000
  cases type <;> decide

theorem normal_isNormal (h : Header) : h.normal.IsNormal := by
  refine isNormal_of_read (some h.signerKey) h.signature ?_ h.signer_normal rfl
  show (unpackVersion h.version).toNat < 0x1000000
  rw [toNat_unpackVersion]
  omega

theorem normal_eq_self {h : Header} (hn : h.IsNormal) : h.normal = h := by
  have hversion := unpackVersion_eq_self.2 hn.version
  have hsigner :
      (h.signer.bind fun a => a.key.nonzero?).map (Account.ofKey · h.network) =
        h.signer := by
    cases hs : h.signer with
    | none => rfl
    | some a =>
        obtain ⟨hzero, hon⟩ := hn.signer a hs
        rw [Option.bind_some, Octets.nonzero?_eq_some.2 ⟨hzero, rfl⟩]
        exact congrArg some hon
  have hsignature : h.signature.bind Octets.nonzero? = h.signature := by
    cases hs : h.signature with
    | none => rfl
    | some s => exact Octets.nonzero?_eq_some.2 ⟨hn.signature s hs, rfl⟩
  unfold normal
  rw [hversion, hsigner, hsignature]

theorem embedded_eq_self {h : Header} (he : h.IsEmbedded) : h.embedded = h := by
  obtain ⟨hsignature, hfee, hdeadline, hinfo⟩ := he
  cases h
  simp only at hsignature hfee hdeadline hinfo
  subst hsignature hfee hdeadline hinfo
  rfl

theorem embedded_isEmbedded (h : Header) : h.embedded.IsEmbedded :=
  ⟨rfl, rfl, rfl, rfl⟩

theorem embedded_isNormal {h : Header} (hn : h.IsNormal) : h.embedded.IsNormal :=
  ⟨hn.version, hn.signer, fun _ hs => by cases hs⟩

theorem unreported_isNormal {h : Header} (hn : h.IsNormal) : h.unreported.IsNormal :=
  ⟨hn.version, hn.signer, hn.signature⟩

theorem unreported_eq_self {h : Header} (hinfo : h.info = none) : h.unreported = h := by
  cases h
  cases hinfo
  rfl

end Header

/-! ## Records and payloads -/

/-- The upload with its participant derived on a network. -/
def Upload.on (network : Network) (u : Upload) : Upload :=
  { u with participant := u.participant.on network }

/-- The failure with its replicator derived on a network. -/
def VerificationFailure.on (network : Network) (f : VerificationFailure) :
    VerificationFailure :=
  { f with replicator := f.replicator.on network }

/-- The cosignature with its signer derived on a network. -/
def Cosignature.on (network : Network) (c : Cosignature) : Cosignature :=
  { c with signer := c.signer.on network }

namespace Payload

/-- The payload with each account derived from its key on a network. -/
def on (network : Network) : Payload → Payload
  | .prepareDrive terms => .prepareDrive { terms with owner := terms.owner.on network }
  | .joinToDrive drive => .joinToDrive (drive.on network)
  | .driveFileSystem change =>
    .driveFileSystem { change with drive := change.drive.on network }
  | .filesDeposit drive files => .filesDeposit (drive.on network) files
  | .endDrive drive => .endDrive (drive.on network)
  | .driveFilesReward uploads => .driveFilesReward (uploads.map (Upload.on network))
  | .startDriveVerification drive => .startDriveVerification (drive.on network)
  | .endDriveVerification failures =>
    .endDriveVerification (failures.map (VerificationFailure.on network))
  | .startFileDownload drive files => .startFileDownload (drive.on network) files
  | .endFileDownload recipient token files =>
    .endFileDownload (recipient.on network) token files

@[simp] theorem shape_on (network : Network) (p : Payload) :
    (p.on network).shape = p.shape := by
  cases p <;> rfl

theorem shape_ne_aggregate (p : Payload) : p.shape ≠ .aggregate := by
  cases p <;> exact fun h => Shape.noConfusion h

theorem on_on (network : Network) (p : Payload) :
    (p.on network).on network = p.on network := by
  cases p with
  | driveFilesReward uploads =>
      simp only [on, List.map_map]
      rfl
  | endDriveVerification failures =>
      simp only [on, List.map_map]
      rfl
  | _ => rfl

end Payload

/-- A list is left alone by a function on its entries if every entry is. -/
theorem map_eq_self_of_keys {α : Type} {key : α → Account} {f : α → α}
    {network : Network} (hf : ∀ a, (key a).on network = key a → f a = a) {as : List α}
    (h : ∀ account ∈ as.map key, account.on network = account) : as.map f = as := by
  rw [List.forall_mem_map] at h
  exact (List.map_congr_left fun a ha => hf a (h a ha)).trans (List.map_id' as)

theorem Upload.on_eq_self {network : Network} {u : Upload}
    (h : u.participant.on network = u.participant) : u.on network = u := by
  unfold Upload.on
  rw [h]

theorem VerificationFailure.on_eq_self {network : Network} {f : VerificationFailure}
    (h : f.replicator.on network = f.replicator) : f.on network = f := by
  unfold VerificationFailure.on
  rw [h]

theorem Cosignature.on_eq_self {network : Network} {c : Cosignature}
    (h : c.signer.on network = c.signer) : c.on network = c := by
  unfold Cosignature.on
  rw [h]

theorem Payload.on_eq_self {network : Network} {p : Payload}
    (h : ∀ a ∈ p.accounts, a.on network = a) : p.on network = p := by
  cases p with
  | driveFilesReward uploads =>
      rw [Payload.on, map_eq_self_of_keys (fun _ => Upload.on_eq_self) h]
  | endDriveVerification failures =>
      rw [Payload.on, map_eq_self_of_keys (fun _ => VerificationFailure.on_eq_self) h]
  | prepareDrive terms =>
      rw [Payload.on, h terms.owner (List.mem_singleton.2 rfl)]
  | driveFileSystem change =>
      rw [Payload.on, h change.drive (List.mem_singleton.2 rfl)]
  | joinToDrive drive | filesDeposit drive | endDrive drive
  | startDriveVerification drive | startFileDownload drive | endFileDownload drive =>
      rw [Payload.on, h drive (List.mem_singleton.2 rfl)]

theorem Payload.accounts_on (network : Network) (p : Payload) :
    (p.on network).accounts = p.accounts.map (Account.on network) := by
  cases p with
  | driveFilesReward uploads =>
      simp only [Payload.on, Payload.accounts, List.map_map]
      rfl
  | endDriveVerification failures =>
      simp only [Payload.on, Payload.accounts, List.map_map]
      rfl
  | _ => rfl

/-- A payload that is left alone holds no account that is not. -/
theorem Payload.accounts_of_on_eq_self {network : Network} {p : Payload}
    (h : p.on network = p) : ∀ a ∈ p.accounts, a.on network = a := by
  intro a ha
  rw [← h, Payload.accounts_on] at ha
  obtain ⟨b, _, rfl⟩ := List.mem_map.1 ha
  rfl

/-! ## Transactions -/

theorem Shape.check_ok {shape : Shape} {type : TransactionType} {u : Unit} :
    shape.check type = .ok u ↔ type.shape = shape := by
  unfold Shape.check
  split
  · next heq => simp [heq]
  · next hne => simp [hne]

namespace Transaction

/-- A transaction bears a type of what it is, and so do the transactions in an
aggregate, none of which is an aggregate. -/
structure WellTyped (tx : Transaction) : Prop where
  type : tx.type.shape = tx.shape
  inner : ∀ part ∈ tx.inner, part.type.shape = part.shape ∧ part.shape ≠ .aggregate

mutual

/-- What a transaction is read back as by who loses nothing else: headers are in
normal form, and accounts are on the network of their header. -/
def normal : Transaction → Transaction
  | .single header payload => .single header.normal (payload.on header.network)
  | .aggregate header inner cosignatures =>
    .aggregate header.normal (normalList inner)
      (cosignatures.map (Cosignature.on header.network))

/-- The normal forms of transactions. -/
def normalList : List Transaction → List Transaction
  | [] => []
  | tx :: rest => normal tx :: normalList rest

end

/-- The transaction with no more in its header than the embedded form holds. -/
def embedded (tx : Transaction) : Transaction :=
  tx.withHeader tx.header.embedded

/-- What the bytes of a transaction carry of it. -/
def carried : Transaction → Transaction
  | .single header payload => .single header.unreported payload
  | .aggregate header inner cosignatures =>
    .aggregate header.unreported (inner.map embedded) cosignatures

/-- Transactions that their documents are read back as. -/
structure IsNormal (tx : Transaction) : Prop where
  header : tx.header.IsNormal
  accounts : ∀ a ∈ tx.accounts, a.on tx.header.network = a
  inner : ∀ part ∈ tx.inner, part.header.IsNormal ∧
    ∀ a ∈ part.accounts, a.on part.header.network = a

/-- Transactions that their bytes are read back as. -/
structure IsCarried (tx : Transaction) : Prop extends IsNormal tx where
  info : tx.header.info = none
  embedded : ∀ part ∈ tx.inner, part.header.IsEmbedded

theorem normalList_eq_map (txs : List Transaction) : normalList txs = txs.map normal := by
  induction txs with
  | nil => rfl
  | cons tx rest ih => rw [normalList, List.map_cons, ih]

theorem normal_single (header : Header) (payload : Payload) :
    (single header payload).normal =
      .single header.normal (payload.on header.network) := by
  rw [normal]

theorem normal_aggregate (header : Header) (inner : List Transaction)
    (cosignatures : List Cosignature) :
    (aggregate header inner cosignatures).normal =
      .aggregate header.normal (inner.map normal)
        (cosignatures.map (Cosignature.on header.network)) := by
  rw [normal, normalList_eq_map]

theorem exists_single {tx : Transaction} (h : tx.shape ≠ .aggregate) :
    ∃ header payload, tx = .single header payload := by
  cases tx with
  | single header payload => exact ⟨header, payload, rfl⟩
  | aggregate header inner cosignatures => exact absurd rfl h

theorem header_normal (tx : Transaction) : tx.normal.header = tx.header.normal := by
  cases tx with
  | single header payload => rw [normal_single]; rfl
  | aggregate header inner cosignatures => rw [normal_aggregate]; rfl

theorem header_carried (tx : Transaction) : tx.carried.header = tx.header.unreported := by
  cases tx <;> rfl

theorem network_normal_carried (tx : Transaction) :
    tx.normal.carried.header.network = tx.header.network := by
  rw [header_carried, header_normal]
  rfl

theorem shape_normal (tx : Transaction) : tx.normal.shape = tx.shape := by
  cases tx with
  | single header payload => rw [normal_single]; exact Payload.shape_on _ _
  | aggregate header inner cosignatures => rw [normal_aggregate]; rfl

theorem type_normal (tx : Transaction) : tx.normal.type = tx.type := by
  rw [type, header_normal]
  rfl

theorem shape_embedded (tx : Transaction) : tx.embedded.shape = tx.shape := by
  cases tx <;> rfl

theorem type_embedded (tx : Transaction) : tx.embedded.type = tx.type := by
  cases tx <;> rfl

theorem wellTyped_normal {tx : Transaction} (h : tx.WellTyped) : tx.normal.WellTyped := by
  refine ⟨?_, ?_⟩
  · rw [type_normal, shape_normal]
    exact h.type
  · intro part hpart
    cases tx with
    | single header payload =>
        rw [normal_single] at hpart
        cases hpart
    | aggregate header inner cosignatures =>
        rw [normal_aggregate] at hpart
        obtain ⟨tx, htx, rfl⟩ := List.mem_map.1 hpart
        rw [type_normal, shape_normal]
        exact h.inner tx htx

theorem wellTyped_carried {tx : Transaction} (h : tx.WellTyped) : tx.carried.WellTyped := by
  cases tx with
  | single header payload => exact ⟨h.type, fun part hpart => by cases hpart⟩
  | aggregate header inner cosignatures =>
      refine ⟨h.type, fun part hpart => ?_⟩
      obtain ⟨tx, htx, rfl⟩ := List.mem_map.1 hpart
      rw [type_embedded, shape_embedded]
      exact h.inner tx htx

theorem accounts_normal (tx : Transaction) :
    ∀ a ∈ tx.normal.accounts, a.on tx.normal.header.network = a := by
  cases tx with
  | single header payload =>
      rw [normal_single]
      exact Payload.accounts_of_on_eq_self (payload.on_on header.network)
  | aggregate header inner cosignatures =>
      rw [normal_aggregate]
      intro a ha
      simp only [accounts, List.map_map] at ha
      obtain ⟨s, _, rfl⟩ := List.mem_map.1 ha
      rfl

theorem isNormal_normal (tx : Transaction) : tx.normal.IsNormal := by
  have hheader : ∀ tx : Transaction, tx.normal.header.IsNormal := by
    intro tx
    rw [header_normal]
    exact tx.header.normal_isNormal
  refine ⟨hheader tx, tx.accounts_normal, fun part hpart => ?_⟩
  cases tx with
  | single header payload =>
      rw [normal_single] at hpart
      cases hpart
  | aggregate header inner cosignatures =>
      rw [normal_aggregate] at hpart
      obtain ⟨part', _, rfl⟩ := List.mem_map.1 hpart
      exact ⟨hheader part', part'.accounts_normal⟩

/-- Bytes carry all that is left of a transaction in normal form. -/
theorem isCarried_carried {tx : Transaction} (hn : tx.IsNormal) : tx.carried.IsCarried := by
  obtain ⟨hheader, haccounts, hinner⟩ := hn
  cases tx with
  | single header payload =>
      refine ⟨⟨Header.unreported_isNormal hheader, haccounts, hinner⟩, rfl, fun part hpart => ?_⟩
      cases hpart
  | aggregate header inner cosignatures =>
      refine ⟨⟨Header.unreported_isNormal hheader, haccounts, ?_⟩, rfl, ?_⟩
      · intro part hpart
        obtain ⟨part', hpart', rfl⟩ := List.mem_map.1 hpart
        obtain ⟨hheader', haccounts'⟩ := hinner part' hpart'
        cases part' <;> exact ⟨Header.embedded_isNormal hheader', haccounts'⟩
      · intro part hpart
        obtain ⟨part', _, rfl⟩ := List.mem_map.1 hpart
        cases part' <;> exact Header.embedded_isEmbedded _

theorem normal_eq_self {tx : Transaction} (h : tx.WellTyped) (hn : tx.IsNormal) :
    tx.normal = tx := by
  have hsingle : ∀ (header : Header) (payload : Payload), header.IsNormal →
      (∀ a ∈ payload.accounts, a.on header.network = a) →
        (single header payload).normal = single header payload := by
    intro header payload hheader haccounts
    rw [normal_single, Header.normal_eq_self hheader, Payload.on_eq_self haccounts]
  cases tx with
  | single header payload => exact hsingle header payload hn.header hn.accounts
  | aggregate header inner cosignatures =>
      have hheader : header.normal = header := Header.normal_eq_self hn.header
      have hcosignatures :
          cosignatures.map (Cosignature.on header.network) = cosignatures :=
        map_eq_self_of_keys (fun _ => Cosignature.on_eq_self) hn.accounts
      have hinner : inner.map normal = inner := by
        refine (List.map_congr_left fun part hpart => ?_).trans (List.map_id' inner)
        obtain ⟨hheader', haccounts⟩ := hn.inner part hpart
        obtain ⟨header', payload, rfl⟩ := exists_single (h.inner part hpart).2
        exact hsingle header' payload hheader' haccounts
      rw [normal_aggregate, hheader, hinner, hcosignatures]

theorem carried_eq_self {tx : Transaction} (hc : tx.IsCarried) : tx.carried = tx := by
  cases tx with
  | single header payload =>
      have hreported : header.unreported = header := Header.unreported_eq_self hc.info
      rw [carried, hreported]
  | aggregate header inner cosignatures =>
      have hreported : header.unreported = header := Header.unreported_eq_self hc.info
      have hinner : inner.map embedded = inner := by
        refine (List.map_congr_left fun part hpart => ?_).trans (List.map_id' inner)
        unfold embedded
        rw [Header.embedded_eq_self (hc.embedded part hpart)]
        cases part <;> rfl
      rw [carried, hreported, hinner]

/-- A transaction that its bytes are read back as is its own normal form, and its
bytes carry all of it. -/
theorem normal_carried_eq_self {tx : Transaction} (h : tx.WellTyped)
    (hc : tx.IsCarried) : tx.normal.carried = tx := by
  rw [normal_eq_self h hc.toIsNormal, carried_eq_self hc]

/-- Whatever a transaction was, the bytes of its normal form carry all that they
are read back as. -/
theorem normal_carried_isCarried {tx : Transaction} (h : tx.WellTyped) :
    tx.normal.carried.WellTyped ∧ tx.normal.carried.IsCarried :=
  ⟨wellTyped_carried (wellTyped_normal h), isCarried_carried tx.isNormal_normal⟩

/-- An aggregate that is far from its normal form: its version spills into the top
byte, zeros stand for its signer and its signature, a node has reported it, and the
deposit in it has a fee, a deadline and accounts on another network. -/
def unkempt : Transaction :=
  .aggregate
    { Header.new .aggregateCompleted .mijinTest 9 with
      version := 0xFF000002
      signer := some (.ofKey (.zero 32) .mijinTest)
      signature := some (.zero 64)
      info := some ⟨4, 1, "5C", some (.zero 32), none, none, none⟩ }
    [.single
      { Header.new .filesDeposit .publicTest 8 with
        maxFee := 7, signer := some (.ofKey ⟨List.replicate 32 2, rfl⟩ .mijin) }
      (.filesDeposit (.ofKey ⟨List.replicate 32 3, rfl⟩ .mijin) [.zero 32])]
    [⟨.ofKey ⟨List.replicate 32 4, rfl⟩ .mijin, .zero 64⟩]

theorem unkempt_wellTyped : unkempt.WellTyped :=
  ⟨rfl, by decide⟩

end Transaction

end DriveChain
