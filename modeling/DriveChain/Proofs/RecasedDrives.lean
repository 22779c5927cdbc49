import DriveChain.Drive.Document
import DriveChain.Proofs.RecasedTransactions

/-!
# Documents of recased drives

In the document of a drive keys and hashes stand in its record, with its payments, its files
and its replicators. The record of a drive has its files under their hashes and its
replicators under their keys, and if a file or a replicator is listed twice, the last one
counts. All keys are taken at their meaning before they are put in order, so digits of
another case neither tell two apart nor move one to another place.
-/

namespace DriveChain

open Json (Decoder Fields Recased Schema)

/-! ## Where digits stand -/

namespace Json.Schema

/-- Where the digits stand in a payment. -/
def payment : Schema :=
  .record [("receiver", .hex), ("amount", .other), ("height", .other)]

/-- Where the digits stand in a billing period. -/
def billing : Schema :=
  .record [("start", .other), ("end", .other), ("payments", .list payment)]

/-- Where the digits stand in a file of a drive. -/
def driveFile : Schema :=
  .record [("fileHash", .hex), ("size", .other)]

/-- Where the digits stand in a replicator. -/
def replicator : Schema :=
  .record
    [("replicator", .hex), ("start", .other), ("end", .other), ("index", .other),
     ("activeFilesWithoutDeposit", .list .hex)]

/-- Where the digits stand in a drive. -/
def drive : Schema :=
  .record
    [("multisig", .hex), ("start", .other), ("state", .other), ("owner", .hex),
     ("rootHash", .hex), ("duration", .other), ("billingPeriod", .other),
     ("billingPrice", .other), ("size", .other), ("occupiedSpace", .other),
     ("replicas", .other), ("minReplicators", .other), ("percentApprovers", .other),
     ("billingHistory", .list billing), ("files", .list driveFile),
     ("replicators", .list replicator), ("uploadPayments", .list payment)]

/-- The document of one drive. -/
def driveEnvelope : Schema :=
  .record [("drive", drive)]

end Json.Schema

/-! ## Keys and hashes -/

section Fields

variable {field text text' : String} {network : Network}

theorem driveAccount_agree (h : SameDigits text text') :
    Agree Eq (driveAccount network field text) (driveAccount network field text') := by
  unfold driveAccount
  rcases agree_iff.1 (@Account.ofField_agree field text text' network h) with
    ⟨a, _, ha, hb, rfl⟩ | ⟨e, e', he, he'⟩
  · simp only [ha, hb]
    exact .ok rfl
  · simp only [he, he']
    exact .error _ _

theorem driveHash_agree (h : SameDigits text text') :
    Agree Eq (driveHash field text) (driveHash field text') := by
  unfold driveHash
  rcases agree_iff.1 (@Octets.ofField_agree 32 field text text' h) with
    ⟨a, _, ha, hb, rfl⟩ | ⟨e, e', he, he'⟩
  · simp only [ha, hb]
    exact .ok rfl
  · simp only [he, he']
    exact .error _ _

end Fields

/-! ## Parts of a drive -/

theorem PaymentDocument.decoder_follows : decoder.Follows Schema.payment fun d d' =>
    ∀ network, Agree Eq (Payment.ofDocument network d) (Payment.ofDocument network d') := by
  refine Fields.record_follows _ (Fields.seq_follow (Fields.seq_follow (Fields.map_follow
    (Fields.digits_follow "receiver" rfl) ?_) (Fields.required_follow rfl))
    (Fields.required_follow rfl)) (List.prefix_refl _)
  rintro receiver receiver' hreceiver amount _ rfl height _ rfl network
  refine agree_bind (driveAccount_agree hreceiver) ?_
  rintro account _ rfl
  exact .ok rfl

theorem BillingDocument.decoder_follows : decoder.Follows Schema.billing fun d d' =>
    ∀ network, Agree Eq (Billing.ofDocument network d) (Billing.ofDocument network d') := by
  refine Fields.record_follows _ (Fields.seq_follow (Fields.seq_follow (Fields.map_follow
    (Fields.required_follow rfl) ?_) (Fields.required_follow rfl))
    (Fields.list_follow _ "payments" rfl
      (Decoder.list_follows PaymentDocument.decoder_follows)))
    (List.prefix_refl _)
  rintro start _ rfl stop _ rfl payments payments' hpayments network
  refine agree_bind (agree_mapM_eq hpayments fun _ _ _ h => h network) ?_
  rintro payments _ rfl
  exact .ok rfl

theorem FileDocument.decoder_follows : decoder.Follows Schema.driveFile fun d d' =>
    Agree Eq (fileOfDocument d) (fileOfDocument d') := by
  refine Fields.record_follows _ (Fields.seq_follow (Fields.map_follow
    (Fields.digits_follow "fileHash" rfl) ?_) (Fields.required_follow rfl)) (List.prefix_refl _)
  rintro hash hash' hhash size _ rfl
  refine agree_bind (driveHash_agree hhash) ?_
  rintro hash _ rfl
  exact .ok rfl

theorem ReplicatorDocument.decoder_follows : decoder.Follows Schema.replicator fun d d' =>
    ∀ network, Agree Eq (Replicator.ofDocument network d) (Replicator.ofDocument network d') := by
  refine Fields.record_follows _ (Fields.seq_follow (Fields.seq_follow (Fields.seq_follow
    (Fields.seq_follow (Fields.map_follow (Fields.digits_follow "replicator" rfl) ?_)
      (Fields.required_follow rfl)) (Fields.required_follow rfl)) (Fields.optional_follow rfl))
    (Fields.list_follow _ "activeFilesWithoutDeposit" rfl
      (Decoder.list_follows Decoder.text_follows))) (List.prefix_refl _)
  rintro key key' hkey start _ rfl stop _ rfl index _ rfl files files' hfiles network
  refine agree_bind (driveAccount_agree hkey) ?_
  rintro account _ rfl
  refine agree_bind (agree_mapM_eq hfiles fun _ _ _ h => driveHash_agree h) ?_
  rintro hashes _ rfl
  exact .ok rfl

/-! ## Drives -/

theorem DriveDocument.decoder_follows : decoder.Follows Schema.drive fun d d' =>
    ∀ network, Agree Eq (Drive.ofDocument network d) (Drive.ofDocument network d') := by
  have hbillings := Fields.list_follow Schema.drive.member "billingHistory" rfl
    (Decoder.list_follows BillingDocument.decoder_follows)
  have hfiles := Fields.list_follow Schema.drive.member "files" rfl
    (Decoder.list_follows FileDocument.decoder_follows)
  have hreplicators := Fields.list_follow Schema.drive.member "replicators" rfl
    (Decoder.list_follows ReplicatorDocument.decoder_follows)
  have huploads := Fields.list_follow Schema.drive.member "uploadPayments" rfl
    (Decoder.list_follows PaymentDocument.decoder_follows)
  refine Fields.record_follows _ (Fields.seq_follow (Fields.seq_follow (Fields.seq_follow
    (Fields.seq_follow (Fields.seq_follow (Fields.seq_follow (Fields.seq_follow
    (Fields.seq_follow (Fields.seq_follow (Fields.seq_follow (Fields.seq_follow
    (Fields.seq_follow (Fields.seq_follow (Fields.seq_follow (Fields.seq_follow
    (Fields.seq_follow (Fields.map_follow
      (Fields.digits_follow "multisig" rfl) ?_)
      (Fields.required_follow rfl)) (Fields.required_follow rfl))
      (Fields.digits_follow "owner" rfl)) (Fields.digits_follow "rootHash" rfl))
      (Fields.required_follow rfl)) (Fields.required_follow rfl)) (Fields.required_follow rfl))
      (Fields.required_follow rfl)) (Fields.optional_follow rfl)) (Fields.required_follow rfl))
      (Fields.required_follow rfl)) (Fields.required_follow rfl))
      hbillings) hfiles) hreplicators) huploads) (List.prefix_refl _)
  rintro key key' hkey start _ rfl state _ rfl owner owner' howner root root' hroot
    duration _ rfl period _ rfl price _ rfl size _ rfl occupied _ rfl replicas _ rfl
    least _ rfl percent _ rfl billings billings' hbillings files files' hfiles
    replicators replicators' hreplicators uploads uploads' huploads network
  refine agree_bind (agree_mapM_eq hbillings fun _ _ _ h => h network) ?_
  rintro billings _ rfl
  refine agree_bind (agree_mapM_eq hfiles fun _ _ _ h => h) ?_
  rintro files _ rfl
  refine agree_bind (agree_mapM_eq hreplicators fun _ _ _ h => h network) ?_
  rintro replicators _ rfl
  refine agree_bind (driveAccount_agree hkey) ?_
  rintro account _ rfl
  refine agree_bind (agree_self _) ?_
  rintro state _ rfl
  refine agree_bind (driveAccount_agree howner) ?_
  rintro owner _ rfl
  refine agree_bind (driveHash_agree hroot) ?_
  rintro root _ rfl
  refine agree_bind (agree_mapM_eq huploads fun _ _ _ h => h network) ?_
  rintro uploads _ rfl
  exact .ok rfl

theorem DriveDocument.envelopeDecoder_follows :
    envelopeDecoder.Follows Schema.driveEnvelope fun d d' =>
      ∀ network, Agree Eq (Drive.ofDocument network d) (Drive.ofDocument network d') := by
  have hdrive : (Fields.required "drive" decoder).Follow Schema.driveEnvelope.member _ :=
    @Fields.field_follow _ Schema.driveEnvelope.member _ "drive" decoder none decoder_follows
      fun _ h => nomatch h
  exact Fields.record_follows _ (Fields.map_follow hdrive fun _ _ h => h) (List.prefix_refl _)

namespace Json

/-- Texts of recased values. Whatever else differs between the texts, such as their blanks,
nothing that is read of them does. -/
structure RecasedTexts (schema : Schema) (text text' : List UInt8) : Prop where
  root : Recased schema (Document.ofBytes text).root (Document.ofBytes text').root
  trailing : (Document.ofBytes text).trailing = (Document.ofBytes text').trailing

theorem decodeText_agree {α : Type} {d : Decoder α} {schema : Schema} {R : α → α → Prop}
    (hd : d.Follows schema R) {text text' : List UInt8} (h : RecasedTexts schema text text') :
    Agree R (decodeText d text) (decodeText d text') := by
  unfold decodeText
  simp only [h.trailing]
  rcases agree_iff.1 (hd .text _ _ h.root) with ⟨a, b, ha, hb, hab⟩ | ⟨e, e', he, he'⟩
  · simp only [ha, hb]
    split
    · exact .error _ _
    · exact .ok hab
  · simp only [he, he']
    exact .error _ _

end Json

namespace Drive

theorem ofDecoded_agree {network : Network} {decoded decoded' : Except Json.Error DriveDocument}
    (h : Agree (fun d d' => ∀ network, Agree Eq (ofDocument network d) (ofDocument network d'))
      decoded decoded') : Agree Eq (ofDecoded network decoded) (ofDecoded network decoded') := by
  cases h with
  | ok h => exact h network
  | error e e' => exact .error _ _

theorem ofText_agree {network : Network} {text text' : List UInt8}
    (h : Json.RecasedTexts .driveEnvelope text text') :
    Agree Eq (ofText network text) (ofText network text') :=
  ofDecoded_agree (Json.decodeText_agree DriveDocument.envelopeDecoder_follows h)

end Drive

/-- The case of digits never changes what a message means: two documents of transactions
that differ in nothing else are read as one transaction or are both refused, and so are
two documents of drives, on every network. -/
theorem read_alike_of_recased :
    (∀ document document' : Json, Recased .envelope document document' →
      Agree Eq (Transaction.ofJson document) (Transaction.ofJson document')) ∧
    ∀ (network : Network) (text text' : List UInt8),
      Json.RecasedTexts .driveEnvelope text text' →
        Agree Eq (Drive.ofText network text) (Drive.ofText network text') :=
  ⟨Transaction.ofJson_agree, fun _ _ _ => Drive.ofText_agree⟩

/-! ## An aggregate and a drive -/

/-- The document of one who joins the drive with the given key. -/
def joining (key : String) : Json :=
  .object [("transaction", .object [("version", .natural 0x90000001), ("type", .natural 0x425A),
    ("driveKey", .string key)])]

/-- The document of an aggregate of one who joins. -/
def joiningInside (key : String) : Json :=
  .object [("transaction", .object [("version", .natural 0x90000002), ("type", .natural 0x4241),
    ("transactions", .array [joining key])])]

/-- The text of a drive with one letter all through its keys and its hash, and with no lists. -/
def bareText (letter : UInt8) : List UInt8 :=
  let key := [34] ++ List.replicate 64 letter ++ [34, 44]
  let pair := [91, 49, 44, 48, 93, 44]
  [91, 91] ++ key ++ pair ++ [48, 44] ++ key ++ key ++ pair ++ pair ++ pair ++ pair ++ pair ++
    [49, 44, 49, 44, 49, 93, 93]

/-- The value that such a text is of. -/
def bareDrive (key : String) : Json :=
  let pair := Json.array [.natural 1, .natural 0]
  .array [.array [.string key, pair, .natural 0, .string key, .string key, pair, pair, pair, pair,
    pair, .natural 1, .natural 1, .natural 1]]

section Letters

variable {key key' : String}

theorem joining_recased (h : SameDigits key key') :
    Recased .envelope (joining key) (joining key') := by
  have hkey : Recased (Schema.transaction.member "driveKey") (.string key) (.string key') :=
    .hex h
  have hmembers : Json.RecasedMembers Schema.transaction.member
      [("version", .natural 0x90000001), ("type", .natural 0x425A), ("driveKey", .string key)]
      [("version", .natural 0x90000001), ("type", .natural 0x425A), ("driveKey", .string key')] :=
    .cons (.same _ _) (.cons (.same _ _) (.cons hkey .nil))
  exact .object (.cons (.object hmembers) .nil)

theorem joiningInside_recased (h : SameDigits key key') :
    Recased .envelope (joiningInside key) (joiningInside key') := by
  have hinside : Recased (Schema.transaction.member "transactions") (.array [joining key])
      (.array [joining key']) := .array (.cons (joining_recased h) .nil)
  have hmembers : Json.RecasedMembers Schema.transaction.member
      [("version", .natural 0x90000002), ("type", .natural 0x4241),
        ("transactions", .array [joining key])]
      [("version", .natural 0x90000002), ("type", .natural 0x4241),
        ("transactions", .array [joining key'])] :=
    .cons (.same _ _) (.cons (.same _ _) (.cons hinside .nil))
  exact .object (.cons (.object hmembers) .nil)

theorem bareDrive_recased (h : SameDigits key key') :
    Recased .driveEnvelope (bareDrive key) (bareDrive key') := by
  have hkey : Recased .hex (.string key) (.string key') := .hex h
  refine .array (.cons (.array ?_) .nil)
  exact .cons hkey (.cons (.same _ _) (.cons (.same _ _) (.cons hkey (.cons hkey (.refl _ _)))))

end Letters

theorem ofJson_joiningInside : ∃ tx, Transaction.ofJson (joiningInside
    "abababababababababababababababababababababababababababababababab") = .ok tx := by
  obtain ⟨tx, hjoin⟩ : ∃ tx, Transaction.checkInner (Transaction.ofJson (joining
      "abababababababababababababababababababababababababababababababab")) = .ok tx := by
    rw [Transaction.ofJson_eq]
    exact ⟨_, rfl⟩
  rw [Transaction.ofJson_eq]
  refine ⟨.aggregate _ [tx] [], Transaction.ofJsonAs_ok.2 ⟨rfl, .inr ⟨rfl,
    Transaction.aggregateOfJson_ok.2 ⟨_, _, _, _, _, _, _, _, rfl, rfl, rfl, ?_, rfl, rfl⟩⟩⟩⟩
  show List.mapM _ [_] = _
  rw [List.mapM_cons, hjoin]
  rfl

set_option maxRecDepth 8000 in
theorem ofBytes_bareText :
    Json.Document.ofBytes (bareText 97) = ⟨bareDrive
      "aaaaaaaaaaaaaaaaaaaaaaaaaaaaaaaaaaaaaaaaaaaaaaaaaaaaaaaaaaaaaaaa", false⟩ ∧
    Json.Document.ofBytes (bareText 65) = ⟨bareDrive
      "AAAAAAAAAAAAAAAAAAAAAAAAAAAAAAAAAAAAAAAAAAAAAAAAAAAAAAAAAAAAAAAA", false⟩ :=
  ⟨rfl, rfl⟩

theorem bareText_recased : Json.RecasedTexts .driveEnvelope (bareText 97) (bareText 65) := by
  obtain ⟨hlower, hupper⟩ := ofBytes_bareText
  refine ⟨?_, ?_⟩
  · rw [hlower, hupper]
    exact bareDrive_recased (by decide)
  · rw [hlower, hupper]

theorem ofText_bareText : ∃ d, Drive.ofText .mijinTest (bareText 97) = .ok d := by
  have hread : (Drive.ofText .mijinTest (bareText 97)).isOk = true := by decide +kernel
  cases h : Drive.ofText .mijinTest (bareText 97) with
  | ok d => exact ⟨d, rfl⟩
  | error e =>
      rw [h] at hread
      cases hread

theorem read_alike_of_recased_letters :
    (∃ tx, Transaction.ofJson (joiningInside
        "abababababababababababababababababababababababababababababababab") = .ok tx ∧
      Transaction.ofJson (joiningInside
        "ABABABABABABABABABABABABABABABABABABABABABABABABABABABABABABABAB") = .ok tx) ∧
    ∃ d, Drive.ofText .mijinTest (bareText 97) = .ok d ∧
      Drive.ofText .mijinTest (bareText 65) = .ok d := by
  obtain ⟨tx, htx⟩ := ofJson_joiningInside
  obtain ⟨d, hd⟩ := ofText_bareText
  obtain ⟨htransactions, hdrives⟩ := read_alike_of_recased
  have hletters : SameDigits "abababababababababababababababababababababababababababababababab"
      "ABABABABABABABABABABABABABABABABABABABABABABABABABABABABABABABAB" := by decide
  have hjoin := htransactions _ _ (joiningInside_recased hletters)
  have hdrive := hdrives .mijinTest _ _ bareText_recased
  exact ⟨⟨tx, htx, (agree_eq_iff hjoin tx).1 htx⟩, ⟨d, hd, (agree_eq_iff hdrive d).1 hd⟩⟩

end DriveChain
