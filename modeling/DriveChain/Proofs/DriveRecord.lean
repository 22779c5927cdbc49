import DriveChain.Proofs.Accounts
import DriveChain.Proofs.DriveListing
import DriveChain.Proofs.HexText
import DriveChain.Proofs.SortedKeys

/-!
# What the record of a drive keeps

The document of a drive lists billing periods, files, replicators and payments, and it may
list a file or a replicator twice, in digits of another case or with another size. The record
keeps periods and payments as they are listed. Files and replicators it keeps under their
hashes and keys, all that are listed and each one once, and where one is listed again the
last entry is the one that counts.

A document that lists anything under what is no key or no hash, or that names no state, has
no record at all.
-/

namespace DriveChain

/-! ## Keys and hashes -/

/-- The account of a key that is given as a text. -/
structure Account.IsOf (network : Network) (text : String) (a : Account) : Prop where
  key : a.key.hex = text.toUpper
  derived : a = .ofKey a.key network

section Fields

variable {field text : String} {network : Network}

theorem Octets.ofField_ok {n : Nat} {a : Octets n} :
    ofField n field text = .ok a ↔ a.hex = text.toUpper := by
  rw [eq_comm (a := a.hex), ← ofHex_ok]
  unfold ofField
  cases ofHex n text <;> simp

theorem driveHash_ok {hash : Hash} :
    driveHash field text = .ok hash ↔ hash.hex = text.toUpper := by
  rw [← @Octets.ofField_ok field text 32 hash]
  unfold driveHash
  cases Octets.ofField 32 field text <;> simp

theorem driveAccount_ok {a : Account} :
    driveAccount network field text = .ok a ↔ a.IsOf network text := by
  have hkey : a.IsOf network text ↔
      ∃ key, Octets.ofField 32 field text = .ok key ∧ .ofKey key network = a := by
    simp only [Octets.ofField_ok]
    refine ⟨?_, ?_⟩
    · rintro ⟨hkey, hderived⟩
      exact ⟨a.key, hkey, hderived.symm⟩
    · rintro ⟨key, hkey, rfl⟩
      exact ⟨hkey, rfl⟩
  rw [hkey]
  unfold driveAccount Account.ofField
  cases Octets.ofField 32 field text <;> simp

theorem exists_driveHash : (∃ hash, driveHash field text = .ok hash) ↔ Hex.IsDigits 64 text := by
  rw [← Octets.exists_ofHex (n := 32)]
  simp only [driveHash_ok, Octets.ofHex_ok]
  exact exists_congr fun hash => eq_comm

theorem exists_driveAccount :
    (∃ a, driveAccount network field text = .ok a) ↔ Hex.IsDigits 64 text := by
  rw [← @exists_driveHash field text]
  simp only [driveAccount_ok, driveHash_ok]
  refine ⟨?_, ?_⟩
  · rintro ⟨a, ha⟩
    exact ⟨a.key, ha.key⟩
  · rintro ⟨key, hkey⟩
    exact ⟨.ofKey key network, hkey, rfl⟩

end Fields

theorem DriveState.ofCode?_eq_some {code : UInt8} {state : DriveState} :
    ofCode? code = some state ↔ state.code = code := by
  refine ⟨fun h => ?_, ?_⟩
  · unfold ofCode? at h
    exact beq_iff_eq.1 (List.find?_some (p := fun state : DriveState => state.code == code) h)
  · rintro rfl
    cases state <;> rfl

theorem DriveState.ofCode_ok {code : UInt8} {state : DriveState} :
    ofCode code = .ok state ↔ state.code = code := by
  rw [← ofCode?_eq_some]
  unfold ofCode
  cases ofCode? code <;> simp

/-! ## Payments and billing periods -/

/-- The payment that a document gives. -/
structure Payment.Keeps (network : Network) (d : PaymentDocument) (p : Payment) : Prop where
  receiver : p.receiver.IsOf network d.receiver
  amount : p.amount = d.amount
  height : p.height = d.height

/-- The billing period that a document gives, with its payments as they are listed. -/
structure Billing.Keeps (network : Network) (d : BillingDocument) (b : Billing) : Prop where
  start : b.start = d.start
  stop : b.stop = d.stop
  payments : List.Forall₂ (Payment.Keeps network) d.payments b.payments

theorem Payment.ofDocument_ok {network : Network} {d : PaymentDocument} {p : Payment} :
    ofDocument network d = .ok p ↔ p.Keeps network d := by
  unfold ofDocument
  simp only [except_bind_ok, except_pure_ok, driveAccount_ok]
  refine ⟨?_, ?_⟩
  · rintro ⟨receiver, hreceiver, rfl⟩
    exact ⟨hreceiver, rfl, rfl⟩
  · rintro ⟨hreceiver, hamount, hheight⟩
    refine ⟨p.receiver, hreceiver, ?_⟩
    rw [← hamount, ← hheight]

theorem Payment.ofDocuments_ok {network : Network} {ds : List PaymentDocument}
    {ps : List Payment} : ds.mapM (ofDocument network) = .ok ps ↔
      List.Forall₂ (Payment.Keeps network) ds ps := by
  simp only [mapM_ok_iff, ofDocument_ok]

theorem Billing.ofDocument_ok {network : Network} {d : BillingDocument} {b : Billing} :
    ofDocument network d = .ok b ↔ b.Keeps network d := by
  unfold ofDocument
  simp only [except_bind_ok, except_pure_ok, Payment.ofDocuments_ok]
  refine ⟨?_, ?_⟩
  · rintro ⟨payments, hpayments, rfl⟩
    exact ⟨rfl, rfl, hpayments⟩
  · rintro ⟨hstart, hstop, hpayments⟩
    refine ⟨b.payments, hpayments, ?_⟩
    rw [← hstart, ← hstop]

/-! ## Files and replicators -/

/-- The file that a document gives, as an entry under its hash. -/
structure FileDocument.Gives (d : FileDocument) (entry : Hash × StorageSize) : Prop where
  hash : entry.1.hex = d.hash.toUpper
  size : entry.2 = d.size

/-- The replicator that a document gives, with the files that are listed for it. -/
structure Replicator.Keeps (network : Network) (d : ReplicatorDocument) (r : Replicator) :
    Prop where
  account : r.account.IsOf network d.key
  start : r.start = d.start
  stop : r.stop = d.stop
  index : r.index = d.index
  nodup : r.undeposited.Nodup
  undeposited : ∀ hash, hash ∈ r.undeposited ↔ ∃ text ∈ d.undeposited, hash.hex = text.toUpper

theorem fileOfDocument_ok {d : FileDocument} {entry : Hash × StorageSize} :
    fileOfDocument d = .ok entry ↔ d.Gives entry := by
  unfold fileOfDocument
  simp only [except_bind_ok, except_pure_ok, driveHash_ok]
  refine ⟨?_, ?_⟩
  · rintro ⟨hash, hhash, rfl⟩
    exact ⟨hhash, rfl⟩
  · rintro ⟨hhash, hsize⟩
    refine ⟨entry.1, hhash, ?_⟩
    rw [← hsize]

theorem Octets.hex_injective {n : Nat} : Function.Injective (hex (n := n)) := by
  intro a b h
  have hread := ofHex_hex a
  rw [h, ofHex_hex] at hread
  cases hread
  rfl

/-- What is in a list that was made item by item, by what it was made of. -/
theorem mem_iff_of_forall₂ {α β γ : Type} {f : α → γ} {g : β → γ} (hg : Function.Injective g)
    {as : List α} {bs : List β} (h : List.Forall₂ (fun a b => g b = f a) as bs) {b : β} :
    b ∈ bs ↔ ∃ a ∈ as, g b = f a := by
  have hmap : bs.map g = as.map f := by
    rw [← List.forall₂_eq_eq_eq, List.forall₂_map_left_iff, List.forall₂_map_right_iff]
    exact h.flip
  rw [← List.mem_map_of_injective hg, hmap, List.mem_map]
  simp only [eq_comm]

theorem Replicator.keeps_of_ofDocument {network : Network} {d : ReplicatorDocument}
    {r : Replicator} (h : ofDocument network d = .ok r) : r.Keeps network d := by
  unfold ofDocument at h
  simp only [except_bind_ok, except_pure_ok, driveAccount_ok, mapM_ok_iff, driveHash_ok] at h
  obtain ⟨account, haccount, hashes, hhashes, rfl⟩ := h
  refine ⟨haccount, rfl, rfl, rfl, Sorted.nodup_members (Sorted.orders_octets 32) hashes,
    fun hash => ?_⟩
  rw [Sorted.mem_members]
  exact mem_iff_of_forall₂ Octets.hex_injective hhashes

/-! ## Entries under their keys -/

/-- The last entry of a list that passes a test. -/
def lastWhere {α : Type} (test : α → Bool) (entries : List α) : Option α :=
  entries.reverse.find? test

/-- Looking a key up among entries finds what goes with the first one that is asked for. -/
theorem find?_rel_lookup {α κ ν : Type} [DecidableEq κ] {R : α → κ × ν → Prop}
    {test : α → Bool} {key : κ} (htest : ∀ a entry, R a entry → (test a = true ↔ key = entry.1))
    {as : List α} {entries : List (κ × ν)} (h : List.Forall₂ R as entries) :
    Option.Rel (fun a value => R a (key, value)) (as.find? test) (entries.lookup key) := by
  induction h with
  | nil => exact .none
  | @cons a entry as entries hfirst _ ih =>
      obtain ⟨k, value⟩ := entry
      rw [List.find?_cons, Sorted.lookup_cons]
      by_cases hkey : key = k
      · rw [(htest a _ hfirst).2 hkey, if_pos hkey]
        exact .some (hkey ▸ hfirst)
      · rw [Bool.eq_false_iff.2 fun hpasses => hkey ((htest a _ hfirst).1 hpasses), if_neg hkey]
        exact ih

/-- Under a key stands what the last entry gives that is listed under it. -/
theorem lastWhere_rel_lookup {α κ ν : Type} [DecidableEq κ] {R : α → κ × ν → Prop}
    (before : κ → κ → Bool) (test : α → Bool) (key : κ)
    (htest : ∀ a entry, R a entry → (test a = true ↔ key = entry.1))
    {as : List α} {entries : List (κ × ν)} (h : List.Forall₂ R as entries) :
    Option.Rel (fun a value => R a (key, value)) (lastWhere test as)
      ((Sorted.ofList before entries).lookup key) := by
  rw [Sorted.lookup_ofList]
  exact find?_rel_lookup htest (List.forall₂_reverse_iff.2 h)

/-! ## Drives -/

namespace Drive

/-- What a record keeps of the document of a drive. -/
structure Keeps (network : Network) (document : DriveDocument) (d : Drive) : Prop where
  account : d.account.IsOf network document.key
  owner : d.owner.IsOf network document.owner
  root : d.root.hex = document.root.toUpper
  state : d.state.code = document.state
  start : d.start = document.start
  duration : d.duration = document.duration
  billingPeriod : d.billingPeriod = document.billingPeriod
  billingPrice : d.billingPrice = document.billingPrice
  size : d.size = document.size
  occupied : d.occupied = document.occupied
  replicas : d.replicas = document.replicas
  minReplicators : d.minReplicators = document.minReplicators
  percentApprovers : d.percentApprovers = document.percentApprovers
  billings : List.Forall₂ (Billing.Keeps network) document.billings d.billings
  uploadPayments : List.Forall₂ (Payment.Keeps network) document.uploadPayments d.uploadPayments
  /-- Each file comes once, -/
  nodupFiles : (d.files.map Prod.fst).Nodup
  /-- all that are listed come, and no others, -/
  files : ∀ hash, hash ∈ d.files.map Prod.fst ↔ ∃ f ∈ document.files, hash.hex = f.hash.toUpper
  /-- and the last size that is listed counts. -/
  sizes : ∀ hash, d.files.lookup hash =
    (lastWhere (fun f => f.hash.toUpper == hash.hex) document.files).map FileDocument.size
  nodupReplicators : (d.replicators.map Prod.fst).Nodup
  replicators : ∀ key, key ∈ d.replicators.map Prod.fst ↔
    ∃ r ∈ document.replicators, key = r.key.toUpper
  /-- Replicators stand under the keys of their accounts. -/
  keys : ∀ entry ∈ d.replicators, entry.1 = entry.2.account.key.hex
  records : ∀ key, Option.Rel (fun r replicator => replicator.Keeps network r)
    (lastWhere (fun r => r.key.toUpper == key) document.replicators) (d.replicators.lookup key)
  accounts : ∀ a ∈ d.accounts, a = .ofKey a.key network

theorem keeps_of_ofDocument {network : Network} {document : DriveDocument} {d : Drive}
    (h : ofDocument network document = .ok d) : d.Keeps network document := by
  have haccounts := accounts_of_ofDocument h
  unfold ofDocument at h
  simp only [except_bind_ok, except_pure_ok, driveAccount_ok, driveHash_ok, mapM_ok_iff,
    DriveState.ofCode_ok, Billing.ofDocument_ok, Payment.ofDocument_ok, fileOfDocument_ok] at h
  obtain ⟨billings, hbillings, files, hfiles, replicators, hreplicators, account, haccount,
    state, hstate, owner, howner, root, hroot, uploadPayments, huploads, rfl⟩ := h
  have hkept : List.Forall₂ (Replicator.Keeps network) document.replicators replicators :=
    hreplicators.imp fun _ _ h => Replicator.keeps_of_ofDocument h
  have hentries : List.Forall₂ (fun r (entry : String × Replicator) =>
      entry.1 = r.key.toUpper ∧ entry.2.Keeps network r) document.replicators
      (replicators.map fun r => (r.account.key.hex, r)) :=
    List.forall₂_map_right_iff.2 (hkept.imp fun _ _ h => ⟨h.account.key, h⟩)
  refine {
    account := haccount
    owner := howner
    root := hroot
    state := hstate
    start := rfl
    duration := rfl
    billingPeriod := rfl
    billingPrice := rfl
    size := rfl
    occupied := rfl
    replicas := rfl
    minReplicators := rfl
    percentApprovers := rfl
    billings := hbillings
    uploadPayments := huploads
    nodupFiles := Sorted.nodup_keys_ofList (Sorted.orders_octets 32) files
    files := fun hash => ?_
    sizes := fun hash => ?_
    nodupReplicators := Sorted.nodup_keys_ofList Sorted.orders_text _
    replicators := fun key => ?_
    keys := fun entry hentry => ?_
    records := fun key => ?_
    accounts := fun a ha => (haccounts a ha).symm }
  · rw [Sorted.map_fst_ofList, Sorted.mem_members]
    exact mem_iff_of_forall₂ Octets.hex_injective
      (List.forall₂_map_right_iff.2 (hfiles.imp fun _ _ h => h.hash))
  · have hlast := lastWhere_rel_lookup Octets.before (fun f => f.hash.toUpper == hash.hex) hash
      (fun f entry hgives => ?_) hfiles
    · generalize lastWhere _ document.files = last, List.lookup hash _ = size at hlast ⊢
      cases hlast with
      | none => rfl
      | some hgives => exact congrArg some hgives.size
    · rw [beq_iff_eq, ← hgives.hash, Octets.hex_injective.eq_iff, eq_comm]
  · rw [Sorted.map_fst_ofList, Sorted.mem_members]
    exact mem_iff_of_forall₂ Function.injective_id
      (List.forall₂_map_right_iff.2 (hentries.imp fun _ _ h => h.1))
  · obtain ⟨r, _, rfl⟩ := List.mem_map.1 (Sorted.mem_of_mem_ofList hentry)
    rfl
  · have hlast := lastWhere_rel_lookup (fun a b => decide (a < b)) (fun r => r.key.toUpper == key)
      key (fun r entry hgives => ?_) hentries
    · generalize lastWhere _ document.replicators = last, List.lookup key _ = r at hlast ⊢
      cases hlast with
      | none => exact .none
      | some hgives => exact .some hgives.2
    · rw [beq_iff_eq, ← hgives.1, eq_comm]

end Drive

/-! ## Documents that have a record -/

namespace DriveDocument

/-- The texts of a document that have to be keys or hashes. -/
def digits (d : DriveDocument) : List String :=
  d.key :: d.owner :: d.root ::
    ((d.billings.flatMap (·.payments) ++ d.uploadPayments).map (·.receiver) ++
      d.files.map (·.hash) ++ d.replicators.flatMap fun r => r.key :: r.undeposited)

theorem forall_digits {d : DriveDocument} {P : String → Prop} :
    (∀ text ∈ d.digits, P text) ↔ P d.key ∧ P d.owner ∧ P d.root ∧
      (∀ b ∈ d.billings, ∀ p ∈ b.payments, P p.receiver) ∧
      (∀ p ∈ d.uploadPayments, P p.receiver) ∧ (∀ f ∈ d.files, P f.hash) ∧
      ∀ r ∈ d.replicators, ∀ text ∈ r.key :: r.undeposited, P text := by
  simp only [digits, List.forall_mem_cons, List.forall_mem_append, List.forall_mem_map,
    List.forall_mem_flatMap, and_assoc]

/-- Documents in which all keys, hashes and the state are what they have to be. -/
structure IsValid (d : DriveDocument) : Prop where
  digits : ∀ text ∈ d.digits, Hex.IsDigits 64 text
  state : ∃ state : DriveState, state.code = d.state

end DriveDocument

section Exists

variable {network : Network}

theorem Payment.exists_ofDocument {d : PaymentDocument} :
    (∃ p, ofDocument network d = .ok p) ↔ Hex.IsDigits 64 d.receiver := by
  unfold ofDocument
  simp only [exists_bind_ok, exists_pure_ok, and_true, exists_driveAccount]

theorem Billing.exists_ofDocument {d : BillingDocument} :
    (∃ b, ofDocument network d = .ok b) ↔ ∀ p ∈ d.payments, Hex.IsDigits 64 p.receiver := by
  unfold ofDocument
  simp only [exists_bind_ok, exists_pure_ok, and_true, exists_mapM_ok, Payment.exists_ofDocument]

theorem exists_fileOfDocument {d : FileDocument} :
    (∃ entry, fileOfDocument d = .ok entry) ↔ Hex.IsDigits 64 d.hash := by
  unfold fileOfDocument
  simp only [exists_bind_ok, exists_pure_ok, and_true, exists_driveHash]

theorem Replicator.exists_ofDocument {d : ReplicatorDocument} :
    (∃ r, ofDocument network d = .ok r) ↔
      ∀ text ∈ d.key :: d.undeposited, Hex.IsDigits 64 text := by
  unfold ofDocument
  simp only [exists_bind_ok, exists_pure_ok, and_true, exists_and_right, exists_mapM_ok,
    exists_driveAccount, exists_driveHash, List.forall_mem_cons]

/-- Nothing else can be wrong with a document. -/
theorem Drive.exists_ofDocument {document : DriveDocument} :
    (∃ d, ofDocument network document = .ok d) ↔ document.IsValid := by
  unfold ofDocument
  simp only [exists_bind_ok, exists_pure_ok, and_true, exists_and_right, exists_mapM_ok,
    exists_driveAccount, exists_driveHash, Payment.exists_ofDocument, Billing.exists_ofDocument,
    exists_fileOfDocument, Replicator.exists_ofDocument, DriveState.ofCode_ok]
  refine ⟨?_, ?_⟩
  · rintro ⟨hbillings, hfiles, hreplicators, hkey, hstate, howner, hroot, huploads⟩
    exact ⟨DriveDocument.forall_digits.2 ⟨hkey, howner, hroot, hbillings, huploads, hfiles,
      hreplicators⟩, hstate⟩
  · rintro ⟨hdigits, hstate⟩
    obtain ⟨hkey, howner, hroot, hbillings, huploads, hfiles, hreplicators⟩ :=
      DriveDocument.forall_digits.1 hdigits
    exact ⟨hbillings, hfiles, hreplicators, hkey, hstate, howner, hroot, huploads⟩

end Exists

/-! ## Texts of drives -/

namespace Drive

theorem ofDecoded_ok {network : Network} {decoded : Except Json.Error DriveDocument} {d : Drive} :
    ofDecoded network decoded = .ok d ↔
      ∃ document, decoded = .ok document ∧ ofDocument network document = .ok d := by
  cases decoded <;> simp [ofDecoded]

/-- The record of a drive keeps what its document lists: what is listed in order stays in
order, and what is listed under keys stands under them once, as it is listed last. There
is a record if all keys, hashes and the state of the document are what they have to be,
and otherwise there is none. -/
theorem ofText_keeps (network : Network) (text : List UInt8) :
    (∀ d, ofText network text = .ok d → ∃ document value,
      Json.decodeText DriveDocument.envelopeDecoder text = .ok document ∧
      ((Json.Document.ofBytes text).root.parts ["drive"]).lookup "drive" = some value ∧
      document.IsIn value ∧ d.Keeps network document) ∧
    ∀ document, Json.decodeText DriveDocument.envelopeDecoder text = .ok document →
      ((∃ d, ofText network text = .ok d) ↔ document.IsValid) := by
  refine ⟨fun d h => ?_, fun document hdecode => ?_⟩
  · obtain ⟨document, hdecode, hread⟩ := ofDecoded_ok.1 h
    obtain ⟨value, hlookup, hin⟩ :=
      DriveDocument.isIn_of_envelopeDecoder (Json.read_of_decodeText hdecode)
    exact ⟨document, value, hdecode, hlookup, hin, keeps_of_ofDocument hread⟩
  · rw [← @exists_ofDocument network document]
    unfold ofText
    rw [hdecode]
    exact Iff.rfl

/-! ## A drive with entries that come again -/

/-- A row of items in brackets. -/
def row (items : List (List UInt8)) : List UInt8 :=
  91 :: ([44].intercalate items ++ [93])

/-- The text of a drive with a file and a replicator that are listed twice, in either case. -/
def twiceText : List UInt8 :=
  let lower := 34 :: (List.replicate 64 97 ++ [34])
  let upper := 34 :: (List.replicate 64 65 ++ [34])
  let one := row [[49], [48]]
  let two := row [[50], [48]]
  let payment := row [lower, one, two]
  row [row [lower, one, [50], lower, upper, one, one, one, one, one, [49], [49], [49],
    row [row [one, two, row [payment]]], row [row [lower, one], row [upper, two]],
    row [row [lower, one, two, [55], row [lower, upper]], row [upper, one, two, [56], row []]],
    row [payment]]]

/-- What such a text says. -/
def twice : DriveDocument :=
  let lower := "aaaaaaaaaaaaaaaaaaaaaaaaaaaaaaaaaaaaaaaaaaaaaaaaaaaaaaaaaaaaaaaa"
  let upper := "AAAAAAAAAAAAAAAAAAAAAAAAAAAAAAAAAAAAAAAAAAAAAAAAAAAAAAAAAAAAAAAA"
  { key := lower, start := 1, state := 2, owner := lower, root := upper, duration := 1
    billingPeriod := 1, billingPrice := 1, size := 1, occupied := 1, replicas := 1
    minReplicators := 1, percentApprovers := 1
    billings := [⟨1, 2, [⟨lower, 1, 2⟩]⟩]
    files := [⟨lower, 1⟩, ⟨upper, 2⟩]
    replicators := [⟨lower, 1, 2, 7, [lower, upper]⟩, ⟨upper, 1, 2, 8, []⟩]
    uploadPayments := [⟨lower, 1, 2⟩] }

set_option maxRecDepth 20000 in
theorem decode_twiceText : Json.decodeText DriveDocument.envelopeDecoder twiceText = .ok twice :=
  rfl

theorem twice_isValid : twice.IsValid := by
  have hlower : Hex.IsDigits 64
      "aaaaaaaaaaaaaaaaaaaaaaaaaaaaaaaaaaaaaaaaaaaaaaaaaaaaaaaaaaaaaaaa" := by decide
  have hupper : Hex.IsDigits 64
      "AAAAAAAAAAAAAAAAAAAAAAAAAAAAAAAAAAAAAAAAAAAAAAAAAAAAAAAAAAAAAAAA" := by decide
  refine ⟨DriveDocument.forall_digits.2 ?_, .inProgress, rfl⟩
  simp [twice, hlower, hupper]

theorem ofText_keeps_twice : ∃ d, ofText .mijinTest twiceText = .ok d ∧
    d.Keeps .mijinTest twice ∧
    d.files.lookup ⟨List.replicate 32 0xAA, rfl⟩ = some 2 := by
  obtain ⟨hread, hvalid⟩ := ofText_keeps .mijinTest twiceText
  obtain ⟨d, hd⟩ := (hvalid twice decode_twiceText).2 twice_isValid
  obtain ⟨document, value, hdecode, _, _, hkeeps⟩ := hread d hd
  rw [decode_twiceText] at hdecode
  cases hdecode
  refine ⟨d, hd, hkeeps, ?_⟩
  have hupper : "AAAAAAAAAAAAAAAAAAAAAAAAAAAAAAAAAAAAAAAAAAAAAAAAAAAAAAAAAAAAAAAA".toUpper =
      Octets.hex (n := 32) ⟨List.replicate 32 0xAA, rfl⟩ := by
    rw [← String.toList_inj, String.toUpper, String.toList_map]
    decide +kernel
  rw [hkeeps.sizes, lastWhere, twice, List.reverse_cons, List.reverse_singleton,
    List.singleton_append, List.find?_cons, hupper, beq_self_eq_true]
  rfl

end Drive

end DriveChain
