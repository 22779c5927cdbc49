import DriveChain.Account.Document
import DriveChain.Proofs.Address
import DriveChain.Proofs.Pool
import DriveChain.Proofs.WireForms

/-!
# Whose address an account carries

An account is a key and an address, and the address is meant to be that of the key. It
is wherever an account is made of a key and a network, and that is what all readers of
transactions and of drives do: they read keys only, and derive an address from each of
them on the network that the whole is on.

The document of an account itself has both, and its reader takes them one by one. It
looks at the address, which has to be in order, and at the key, but not at whether they
go together. So every pair of a key and an address is an account that can be read, and
what is read is derived just if the document gives the address in some spelling of it.
-/

namespace DriveChain

open Json (Decoder Fields)

namespace Account

/-- Accounts with the address that their key has on their network. -/
def IsDerived (a : Account) : Prop :=
  a.address = .ofKey a.key a.network

theorem isDerived_of_on {network : Network} {a : Account} (h : a.on network = a) :
    a.IsDerived := by
  rw [← h]
  rfl

end Account

/-! ## Transactions -/

namespace Transaction

/-- The accounts in a transaction: its signer, those that it names, and those in what is
inside. -/
inductive Holds (a : Account) : Transaction → Prop where
  | signer {tx : Transaction} : tx.header.signer = some a → Holds a tx
  | named {tx : Transaction} : a ∈ tx.accounts → Holds a tx
  | part {tx part : Transaction} : part ∈ tx.inner → Holds a part → Holds a tx

/-- Transactions that were read, from either form, alone or in a list. -/
inductive Decoded : Transaction → Prop where
  | bytes {b : List UInt8} {tx : Transaction} : ofBytes b = .ok tx → Decoded tx
  | bytesAs {shape : Shape} {b : List UInt8} {tx : Transaction} :
      ofBytesAs shape b = .ok tx → Decoded tx
  | json {document : Json} {tx : Transaction} : ofJson document = .ok tx → Decoded tx
  | jsonAs {shape : Shape} {document : Json} {tx : Transaction} :
      ofJsonAs shape document = .ok tx → Decoded tx
  | listed {documents : Json} {txs : List Transaction} {tx : Transaction} :
      listOfJson documents = .ok txs → tx ∈ txs → Decoded tx
  | text {text : List UInt8} {tx : Transaction} : ofText text = .ok tx → Decoded tx

theorem sound_of_decoded {tx : Transaction} (h : tx.Decoded) : tx.WellTyped ∧ tx.IsNormal := by
  have hjson : ∀ {document}, ofJson document = .ok tx → tx.WellTyped ∧ tx.IsNormal := by
    intro document h
    obtain ⟨htyped, hnormal, _⟩ := ofJson_sound h
    exact ⟨htyped, hnormal⟩
  cases h with
  | bytes h =>
      obtain ⟨⟨htyped, hcarried⟩, _⟩ := ofBytes_ok.1 h
      exact ⟨htyped, hcarried.toIsNormal⟩
  | bytesAs h =>
      obtain ⟨_, ⟨htyped, hcarried⟩, _⟩ := ofBytesAs_ok.1 h
      exact ⟨htyped, hcarried.toIsNormal⟩
  | json h => exact hjson h
  | jsonAs h =>
      obtain ⟨htyped, hnormal, _⟩ := ofJsonAs_sound h
      exact ⟨htyped, hnormal⟩
  | listed h htx =>
      unfold listOfJson at h
      split at h
      · obtain ⟨value, _, hvalue⟩ := mem_of_mapM_ok h tx htx
        exact hjson hvalue
      · cases h
  | text h =>
      unfold ofText at h
      split at h
      · cases h
      · exact hjson h

theorem isDerived_of_holds {tx : Transaction} {a : Account} (hdecoded : tx.Decoded)
    (h : tx.Holds a) : a.IsDerived := by
  obtain ⟨htyped, hnormal⟩ := sound_of_decoded hdecoded
  cases h with
  | signer hsigner => exact Account.isDerived_of_on (hnormal.header.signer a hsigner).2
  | named hnamed => exact Account.isDerived_of_on (hnormal.accounts a hnamed)
  | @part _ part hpart h =>
      obtain ⟨hheader, haccounts⟩ := hnormal.inner part hpart
      obtain ⟨header, payload, rfl⟩ := exists_single (htyped.inner part hpart).2
      cases h with
      | signer hsigner => exact Account.isDerived_of_on (hheader.signer a hsigner).2
      | named hnamed => exact Account.isDerived_of_on (haccounts a hnamed)
      | part hnested _ => cases hnested

end Transaction

/-! ## Drives -/

theorem on_of_driveAccount {network : Network} {field text : String} {a : Account}
    (h : driveAccount network field text = .ok a) : a.on network = a := by
  unfold driveAccount at h
  split at h
  · cases h
  · next account haccount =>
      cases h
      exact Account.on_of_ofField haccount

theorem Payment.on_of_ofDocuments {network : Network} {ds : List PaymentDocument}
    {ps : List Payment} (h : ds.mapM (ofDocument network) = .ok ps) :
    ∀ p ∈ ps, p.receiver.on network = p.receiver := by
  intro p hp
  obtain ⟨d, _, hd⟩ := mem_of_mapM_ok h p hp
  unfold ofDocument at hd
  simp only [except_bind_ok, except_pure_ok] at hd
  obtain ⟨receiver, hreceiver, rfl⟩ := hd
  exact on_of_driveAccount hreceiver

theorem Billing.on_of_ofDocument {network : Network} {d : BillingDocument} {b : Billing}
    (h : ofDocument network d = .ok b) :
    ∀ p ∈ b.payments, p.receiver.on network = p.receiver := by
  unfold ofDocument at h
  simp only [except_bind_ok, except_pure_ok] at h
  obtain ⟨payments, hpayments, rfl⟩ := h
  exact Payment.on_of_ofDocuments hpayments

theorem Replicator.on_of_ofDocument {network : Network} {d : ReplicatorDocument}
    {r : Replicator} (h : ofDocument network d = .ok r) :
    r.account.on network = r.account := by
  unfold ofDocument at h
  simp only [except_bind_ok, except_pure_ok] at h
  obtain ⟨account, haccount, hashes, _, rfl⟩ := h
  exact on_of_driveAccount haccount

namespace Drive

/-- The accounts in the record of a drive. -/
def accounts (d : Drive) : List Account :=
  d.account :: d.owner :: ((d.billings.flatMap Billing.payments ++ d.uploadPayments).map
    Payment.receiver ++ d.replicators.map fun r => r.2.account)

theorem accounts_of_ofDocument {network : Network} {document : DriveDocument} {d : Drive}
    (h : ofDocument network document = .ok d) : ∀ a ∈ d.accounts, a.on network = a := by
  unfold ofDocument at h
  simp only [except_bind_ok, except_pure_ok] at h
  obtain ⟨billings, hbillings, files, _, replicators, hreplicators, account, haccount, state,
    _, owner, howner, root, _, uploadPayments, hpayments, rfl⟩ := h
  simp only [accounts, List.forall_mem_cons, List.forall_mem_append, List.map_append,
    List.forall_mem_map, List.mem_flatMap, forall_exists_index, and_imp]
  refine ⟨on_of_driveAccount haccount, on_of_driveAccount howner, ⟨?_, ?_⟩, ?_⟩
  · intro payment billing hbilling hpayment
    obtain ⟨d, _, hd⟩ := mem_of_mapM_ok hbillings billing hbilling
    exact Billing.on_of_ofDocument hd payment hpayment
  · exact Payment.on_of_ofDocuments hpayments
  · intro entry hentry
    obtain ⟨r, hr, rfl⟩ := List.mem_map.1 (Sorted.mem_of_mem_ofList hentry)
    obtain ⟨d, _, hd⟩ := mem_of_mapM_ok hreplicators r hr
    exact Replicator.on_of_ofDocument hd

theorem accounts_of_ofDecoded {network : Network} {decoded : Except Json.Error DriveDocument}
    {d : Drive} (h : ofDecoded network decoded = .ok d) : ∀ a ∈ d.accounts, a.on network = a := by
  unfold ofDecoded at h
  split at h
  · cases h
  · exact accounts_of_ofDocument h

end Drive

/-- Drives that were read, alone or with a page. -/
inductive Drive.Decoded : Drive → Prop where
  | json {network : Network} {value : Json} {d : Drive} :
      Drive.ofJson network value = .ok d → Decoded d
  | text {network : Network} {text : List UInt8} {d : Drive} :
      Drive.ofText network text = .ok d → Decoded d
  | page {network : Network} {text : List UInt8} {page : DrivePage} {d : Drive} :
      DrivePage.ofText network text = .ok page → d ∈ page.drives → Decoded d

theorem DrivePage.exists_ofJson {network : Network} {text : List UInt8} {page : DrivePage}
    (h : ofText network text = .ok page) :
    ∀ d ∈ page.drives, ∃ value, Drive.ofJson network value = .ok d := by
  unfold ofText at h
  split at h
  · cases h
  · next entries pagination _ =>
      split at h
      · cases h
      · next drives hdrives =>
          cases h
          intro d hd
          have hresult : Except.ok d ∈ entries.map (Drive.ofJson network) := by
            rw [Page.map_ok.1 hdrives]
            exact List.mem_map_of_mem hd
          obtain ⟨value, _, hvalue⟩ := List.mem_map.1 hresult
          exact ⟨value, hvalue⟩

theorem Drive.isDerived_of_decoded {d : Drive} (h : d.Decoded) : ∀ a ∈ d.accounts, a.IsDerived := by
  intro a ha
  cases h with
  | json h => exact Account.isDerived_of_on (accounts_of_ofDecoded h a ha)
  | text h => exact Account.isDerived_of_on (accounts_of_ofDecoded h a ha)
  | page h hd =>
      obtain ⟨value, hvalue⟩ := DrivePage.exists_ofJson h d hd
      exact Account.isDerived_of_on (accounts_of_ofDecoded hvalue a ha)

namespace Account

/-! ## Ways to an account -/

/-- The ways in which one comes by an account without reading the document of an account:
from a key, with the header of a transaction, or with a whole transaction or drive. -/
inductive Made : Account → Prop where
  | key (key : Key) (network : Network) : Made (.ofKey key network)
  | hex {text : String} {network : Network} {a : Account} : ofHex text network = .ok a → Made a
  | field {field text : String} {network : Network} {a : Account} :
      ofField field text network = .ok a → Made a
  | header {d : HeaderDocument} {info : Option Info} {h : Header} {a : Account} :
      Header.ofDocument d info = .ok h → h.signer = some a → Made a
  | transaction {tx : Transaction} {a : Account} : tx.Decoded → tx.Holds a → Made a
  | drive {d : Drive} {a : Account} : d.Decoded → a ∈ d.accounts → Made a

/-- All the ways to an account. -/
inductive Obtained : Account → Prop where
  | made {a : Account} : Made a → Obtained a
  | document {source : Json.Source} {value : Json} {a : Account} :
      decoder source value = .ok a → Obtained a

theorem isDerived_of_made {a : Account} (h : a.Made) : a.IsDerived := by
  cases h with
  | key key network => rfl
  | hex h =>
      unfold ofHex at h
      split at h
      · cases h
      · cases h
        rfl
  | field h => exact isDerived_of_on (on_of_ofField h)
  | header h ha => exact isDerived_of_on ((Header.isNormal_of_ofDocument h).signer a ha).2
  | transaction htx ha => exact Transaction.isDerived_of_holds htx ha
  | drive hd ha => exact Drive.isDerived_of_decoded hd a ha

/-! ## Documents of accounts -/

/-- Where the texts of a key and of an address stand in the document of an account. -/
inductive Gives (key address : String) : Json → Prop where
  | members {members : List (String × Json)} :
      members.lookup "publicKey" = some (.string key) →
      members.lookup "address" = some (.string address) → Gives key address (.object members)
  | items : Gives key address (.array [.string key, .string address])

theorem gives_of_decoder {source : Json.Source} {value : Json} {a : Account}
    (h : decoder source value = .ok a) : ∃ key address, Gives key address value ∧
      Octets.ofHex 32 key = .ok a.key ∧ Address.ofText address = .ok a.address := by
  unfold decoder Fields.record at h
  split at h
  · next members =>
      obtain ⟨make, address, hmake, haddress, rfl⟩ :=
        Fields.ofMembers_seq_ok.1 (Fields.ofMembers_of_ofObject h)
      obtain ⟨key, hkey, rfl⟩ := Fields.ofMembers_map_ok.1 hmake
      obtain ⟨value, hlookup, hvalue⟩ := Fields.lookup_of_required hkey
      obtain ⟨value', hlookup', hvalue'⟩ := Fields.lookup_of_required haddress
      obtain ⟨s, rfl, hs⟩ := Decoder.octets_ok.1 hvalue
      obtain ⟨t, rfl, ht⟩ := Address.decoder_ok.1 hvalue'
      exact ⟨s, t, .members hlookup hlookup', hs, ht⟩
  · next items =>
      split at h
      · cases h
      · next b taken rest hitems =>
          split at h
          · cases h
          · next hend =>
              cases h
              obtain ⟨make, address, middle, behind, hmake, haddress, rfl⟩ :=
                Fields.ofItems_seq_ok hitems
              obtain ⟨key, hkey, rfl⟩ := Fields.ofItems_map_ok hmake
              obtain ⟨item, rfl, hitem⟩ := Fields.ofItems_required hkey
              obtain ⟨item', rfl, hitem'⟩ := Fields.ofItems_required haddress
              obtain ⟨s, rfl, hs⟩ := Decoder.octets_ok.1 hitem
              obtain ⟨t, rfl, ht⟩ := Address.decoder_ok.1 hitem'
              cases rest with
              | nil => exact ⟨s, t, .items, hs, ht⟩
              | cons item rest => cases item <;> cases hend
  · cases h

/-- Any key goes with any address. -/
theorem json_reads (a : Account) : decoder.Reads a.json a := by
  have haddress : Address.decoder.Reads (.string a.address.text) a.address :=
    Decoder.check_reads (Decoder.text_reads _) (by rw [Address.ofText_text])
  have hkey := Fields.written_required "publicKey" (Decoder.octets_reads a.key)
  have hwritten := (hkey.map Account.mk).seq (Fields.written_required "address" haddress)
  exact hwritten.record_reads (by decide) (List.Perm.refl _) "an account"

/-- However one comes by an account, it carries the address of its key, unless it is read
from a document of its own. Such a document may give any key with any address, and the
account that is read carries the address of its key just if the text of the address is a
spelling of that. -/
theorem address_of_account (a : Account) :
    (a.Made → a.address = .ofKey a.key a.network) ∧
    (∀ source value, decoder source value = .ok a → ∃ key address, Gives key address value ∧
      Octets.ofHex 32 key = .ok a.key ∧ Address.ofText address = .ok a.address ∧
      (a.address = .ofKey a.key a.network ↔
        Address.canonical address = (Address.ofKey a.key a.network).text)) ∧
    ∀ source, decoder source a.json = .ok a := by
  refine ⟨isDerived_of_made, fun source value h => ?_, a.json_reads.read⟩
  obtain ⟨key, address, hgives, hkey, haddress⟩ := gives_of_decoder h
  refine ⟨key, address, hgives, hkey, haddress, ?_⟩
  rw [Address.ofText_ok.1 haddress]
  exact ⟨fun heq => congrArg Address.text heq, Address.text_inj⟩

/-- A key of ones. -/
def ones : Key :=
  ⟨List.replicate 32 1, rfl⟩

theorem ofHex_ones : Octets.ofHex 32
    "0101010101010101010101010101010101010101010101010101010101010101" = .ok ones := by
  decide

theorem address_of_account_ones : ∃ a : Account,
    ofHex "0101010101010101010101010101010101010101010101010101010101010101" .mijinTest = .ok a ∧
    a.address = .ofKey a.key a.network ∧ decoder .text a.json = .ok a ∧
    ∃ key address, Gives key address a.json ∧
      Address.canonical address = (Address.ofKey a.key a.network).text := by
  have hhex : ofHex "0101010101010101010101010101010101010101010101010101010101010101"
      .mijinTest = .ok (.ofKey ones .mijinTest) := by
    rw [ofHex, ofHex_ones]
  obtain ⟨hmade, hread, hany⟩ := address_of_account (.ofKey ones .mijinTest)
  have hderived := hmade (.hex hhex)
  obtain ⟨key, address, hgives, _, _, hspelling⟩ := hread .text _ (hany .text)
  exact ⟨_, hhex, hderived, hany .text, key, address, hgives, hspelling.1 hderived⟩

/-- The key of one account with the address of another. -/
def crossed : Account where
  key := ones
  address := .ofKey
    ⟨[0x32, 0x1D, 0xE6, 0x52, 0xC4, 0xD3, 0x36, 0x2F, 0xC2, 0xDD, 0xF7, 0x80, 0x0F, 0x65,
      0x82, 0xF4, 0xA1, 0x0C, 0xFE, 0xA1, 0x34, 0xB8, 0x1F, 0x8A, 0xB6, 0xE4, 0xBE, 0x78,
      0xBB, 0xA4, 0xD1, 0x8E], rfl⟩ .mijinTest

theorem crossed_json : crossed.json = .object
    [("publicKey", .string "0101010101010101010101010101010101010101010101010101010101010101"),
     ("address", .string "SBFBW6TUGLEWQIBCMTBMXXQORZKUP3WTVVTOKK5M")] := by
  have htext : crossed.address.text = "SBFBW6TUGLEWQIBCMTBMXXQORZKUP3WTVVTOKK5M" := by
    decide +kernel
  rw [json, htext]
  rfl

theorem crossed_obtained : decoder .text (.object
      [("publicKey", .string "0101010101010101010101010101010101010101010101010101010101010101"),
       ("address", .string "SBFBW6TUGLEWQIBCMTBMXXQORZKUP3WTVVTOKK5M")]) = .ok crossed ∧
    crossed.address ≠ .ofKey crossed.key crossed.network ∧
    ¬ ∀ a : Account, a.Obtained → a.address = .ofKey a.key a.network := by
  have hread := (json_reads crossed).read .text
  have hne : crossed.address ≠ .ofKey crossed.key crossed.network := by decide +kernel
  rw [crossed_json] at hread
  exact ⟨hread, hne, fun h => hne (h crossed (.document hread))⟩

end Account

end DriveChain
