import DriveChain.Proofs.ReaderFaults
import DriveChain.Proofs.WireForms

/-!
# A transaction is read by the reader of its own type

Whoever does not know what a message holds looks up the type that it declares and
reads it as a transaction of that type. Whoever expects a transaction of one shape
reads it as such and looks at the type on the way, or at the end. The two meet the
type in different places: at a fixed offset and behind a header's other fields, or
on a path into a document and among the fields of a record. It is the same type all
the same, wherever both get so far.

So both read the same messages as the same transactions, no message is read as
transactions of two shapes, and whoever goes by the declared type is never told that
it is the wrong one.
-/

namespace DriveChain

open Json (Decoder Fields)

/-! ## The type in a document -/

/-- A 16-bit number of a document is a whole number in range. -/
theorem Json.Decoder.word16_ok {source : Json.Source} {value : Json} {n : UInt16}
    (h : Decoder.word16 source value = .ok n) :
    ∃ i : Int, value = .number (.integer i) ∧ 0 ≤ i ∧ i < (UInt16.size : Int) ∧
      n = UInt16.ofNat i.toNat := by
  unfold Decoder.word16 Decoder.map Decoder.below at h
  split at h
  · cases h
  · next m hm =>
      cases h
      split at hm
      · next i =>
          split at hm
          · next hrange =>
              cases hm
              exact ⟨i, rfl, hrange.1, hrange.2, rfl⟩
          · cases hm
      · cases hm

/-- The code in a header's document is a member of the object it was read from. -/
theorem HeaderDocument.lookup_type {source : Json.Source} {members : List (String × Json)}
    {d : HeaderDocument} (h : fields.ofObject source members = .ok d) :
    ∃ value, members.lookup "type" = some value ∧ Decoder.word16 source value = .ok d.code := by
  obtain ⟨_, _, h₁, _, rfl⟩ := Fields.ofMembers_seq_ok.1 (Fields.ofMembers_of_ofObject h)
  obtain ⟨_, _, h₂, _, rfl⟩ := Fields.ofMembers_seq_ok.1 h₁
  obtain ⟨_, code, h₃, hcode, rfl⟩ := Fields.ofMembers_seq_ok.1 h₂
  obtain ⟨_, _, h₄, _, rfl⟩ := Fields.ofMembers_seq_ok.1 h₃
  obtain ⟨_, _, h₅, _, rfl⟩ := Fields.ofMembers_seq_ok.1 h₄
  obtain ⟨_, _, rfl⟩ := Fields.ofMembers_map_ok.1 h₅
  exact Fields.lookup_of_required hcode

namespace Transaction

/-- Whatever else a document holds, the code in its header is that of the type that it
declares. -/
theorem declaredJsonType_of_envelope {α : Type} {own : Fields α} {document : Json}
    {d : HeaderDocument} {rest : α} {report : Option InfoDocument}
    (h : envelope own document = .ok (d, rest, report)) :
    declaredJsonType document = TransactionType.ofCode d.code := by
  obtain ⟨⟨inside, hget⟩, hparts⟩ := envelope_ok.1 h
  cases document with
  | object members =>
      have hmade := Fields.ofMembers_of_ofObject hparts
      obtain ⟨_, _, hmade, _, heq⟩ := Fields.ofMembers_seq_ok.1 hmade
      obtain ⟨both, hboth, rfl⟩ := Fields.ofMembers_map_ok.1 hmade
      cases heq
      obtain ⟨value, hlookup, hvalue⟩ := Fields.lookup_of_required hboth
      have hsame : members.lookup "transaction" = some (.object inside) := hget
      rw [hsame] at hlookup
      cases hlookup
      obtain ⟨_, hheader⟩ := Fields.beside_ok.1 hvalue
      obtain ⟨code, htype, hcode⟩ := HeaderDocument.lookup_type hheader
      obtain ⟨i, rfl, hpos, hlt, hcode⟩ := Decoder.word16_ok hcode
      have hfound : Json.get? "type" (.object inside) = some (.number (.integer i)) := htype
      unfold declaredJsonType
      simp only [hget, hfound]
      rw [if_neg (by omega), if_pos hlt, hcode]
  | _ => cases hget

theorem declaredJsonType_of_single {own : Fields PayloadDocument} {document : Json}
    {tx : Transaction} (h : singleOfJson own document = .ok tx) :
    declaredJsonType document = .ok tx.type := by
  obtain ⟨d, _, _, _, header, _, henvelope, _, hheader, _, rfl⟩ := singleOfJson_ok.1 h
  obtain ⟨_, _, _, _, htype, _, _, _, rfl⟩ := Header.ofDocument_ok.1 hheader
  exact (declaredJsonType_of_envelope henvelope).trans htype

theorem declaredJsonType_of_aggregate {document : Json}
    {readInner : Unit → Except TransactionError (List Transaction)} {tx : Transaction}
    (h : aggregateOfJson document readInner = .ok tx) :
    declaredJsonType document = .ok tx.type := by
  obtain ⟨d, _, _, _, _, header, _, _, henvelope, _, hheader, _, _, rfl⟩ :=
    aggregateOfJson_ok.1 h
  obtain ⟨_, _, _, _, htype, _, _, _, rfl⟩ := Header.ofDocument_ok.1 hheader
  exact (declaredJsonType_of_envelope henvelope).trans htype

theorem declaredJsonType_of_ofJsonAs {shape : Shape} {document : Json} {tx : Transaction}
    (h : ofJsonAs shape document = .ok tx) : declaredJsonType document = .ok tx.type := by
  rcases (ofJsonAs_ok.1 h).2 with ⟨own, _, hread⟩ | ⟨_, hread⟩
  · exact declaredJsonType_of_single hread
  · exact declaredJsonType_of_aggregate hread

/-! ## Typed readers -/

theorem ofBytesAs_iff {shape : Shape} {b : List UInt8} {tx : Transaction} :
    ofBytesAs shape b = .ok tx ↔ ofBytes b = .ok tx ∧ tx.shape = shape := by
  rw [ofBytesAs_ok, ofBytes_ok, and_comm]

theorem ofJsonAs_iff {shape : Shape} {document : Json} {tx : Transaction} :
    ofJsonAs shape document = .ok tx ↔ ofJson document = .ok tx ∧ tx.shape = shape := by
  refine ⟨fun h => ?_, fun h => ?_⟩
  · have hshape : tx.type.shape = shape := (ofJsonAs_ok.1 h).1
    have htyped : tx.type.shape = tx.shape := (ofJsonAs_sound h).1.type
    refine ⟨ofJson_ok.2 ⟨tx.type, declaredJsonType_of_ofJsonAs h, ?_⟩, htyped.symm.trans hshape⟩
    rw [hshape]
    exact h
  · obtain ⟨h, rfl⟩ := h
    obtain ⟨type, hdeclared, hread⟩ := ofJson_ok.1 h
    have htyped : tx.type.shape = tx.shape := (ofJson_sound h).1.type
    rw [← htyped, (ofJsonAs_ok.1 hread).1]
    exact hread

/-! ## No complaint about the type

Only a shape's check of a type complains about it. The results of a document's readers
are gone through for errors of their own, and the check comes after them. -/

/-- A result that is no complaint about the type. -/
def Tolerates {α : Type} (result : Except TransactionError α) : Prop :=
  ∀ expected actual, result ≠ .error (.typeMismatch expected actual)

section Tolerates

variable {α β : Type}

theorem tolerates_ok (a : α) : Tolerates (.ok a) :=
  fun _ _ h => nomatch h

theorem tolerates_bind {result : Except TransactionError α}
    {next : α → Except TransactionError β} (h : Tolerates result)
    (hnext : ∀ a, result = .ok a → Tolerates (next a)) : Tolerates (result >>= next) := by
  cases result with
  | ok a => exact hnext a rfl
  | error e => exact fun expected actual heq => h expected actual (congrArg _ (Except.error.inj heq))

theorem tolerates_mapM {read : β → Except TransactionError α} {values : List β}
    (h : ∀ value ∈ values, Tolerates (read value)) : Tolerates (values.mapM read) := by
  induction values with
  | nil => exact tolerates_ok []
  | cons value rest ih =>
      rw [List.forall_mem_cons] at h
      rw [List.mapM_cons]
      exact tolerates_bind h.1 fun _ _ => tolerates_bind (ih h.2) fun _ _ => tolerates_ok _

theorem tolerates_ofField (n : Nat) (field text : String) :
    Tolerates (Octets.ofField n field text) := by
  intro expected actual h
  unfold Octets.ofField at h
  split at h <;> cases h

theorem tolerates_account (field text : String) (network : Network) :
    Tolerates (Account.ofField field text network) := by
  intro expected actual h
  unfold Account.ofField at h
  split at h
  · next hfield =>
      cases h
      exact tolerates_ofField _ _ _ expected actual hfield
  · cases h

theorem tolerates_ofOptionalField (n : Nat) (field : String) (text : Option String) :
    Tolerates (Octets.ofOptionalField n field text) := by
  intro expected actual h
  unfold Octets.ofOptionalField at h
  split at h
  · cases h
  · split at h
    · next hfield =>
        cases h
        exact tolerates_ofField _ _ _ expected actual hfield
    · cases h

theorem tolerates_checkCount (field : String) (announced : UInt16) (found : Nat) :
    Tolerates (checkCount field announced found) := by
  intro expected actual h
  unfold checkCount at h
  split at h <;> cases h

end Tolerates

end Transaction

namespace Payload

open Transaction

theorem fields_tolerate {shape : Shape} {own : Fields PayloadDocument}
    (h : fields? shape = some own) :
    own.Makes fun document => ∀ network, Tolerates (document network) := by
  cases shape with
  | aggregate => cases h
  | prepareDrive =>
      cases h
      refine .seq (.seq (.seq (.seq (.seq (.seq (.seq (.map (Fields.makes_of_forall ?_))))))))
      intro owner _ _ _ _ _ _ _ network
      exact tolerates_bind (tolerates_account _ _ _) fun _ _ => tolerates_ok _
  | joinToDrive | endDrive | startDriveVerification =>
      cases h
      refine .map (Fields.makes_of_forall fun drive network => ?_)
      exact tolerates_bind (tolerates_account _ _ _) fun _ _ => tolerates_ok _
  | driveFileSystem =>
      cases h
      refine .seq (.seq (.seq (.seq (.seq (.seq (.map (Fields.makes_of_forall ?_)))))))
      intro drive newRoot xorRoot adds removes added removed network
      exact tolerates_bind (tolerates_checkCount _ _ _) fun _ _ =>
        tolerates_bind (tolerates_checkCount _ _ _) fun _ _ =>
        tolerates_bind (tolerates_ofField _ _ _) fun _ _ =>
        tolerates_bind (tolerates_ofField _ _ _) fun _ _ =>
        tolerates_bind (tolerates_account _ _ _) fun _ _ => tolerates_ok _
  | filesDeposit | startFileDownload =>
      cases h
      refine .seq (.seq (.map (Fields.makes_of_forall fun drive count files network => ?_)))
      exact tolerates_bind (tolerates_checkCount _ _ _) fun _ _ =>
        tolerates_bind (tolerates_account _ _ _) fun _ _ => tolerates_ok _
  | driveFilesReward =>
      cases h
      refine .seq (.map (Fields.makes_of_forall fun count uploads network => ?_))
      exact tolerates_bind (tolerates_checkCount _ _ _) fun _ _ =>
        tolerates_bind (tolerates_mapM fun upload _ =>
          tolerates_bind (tolerates_account _ _ _) fun _ _ => tolerates_ok _) fun _ _ =>
        tolerates_ok _
  | endDriveVerification =>
      cases h
      refine .map (Fields.makes_of_forall fun failures network => ?_)
      exact tolerates_bind (tolerates_mapM fun failure _ =>
        tolerates_bind (tolerates_account _ _ _) fun _ _ => tolerates_ok _) fun _ _ =>
        tolerates_ok _
  | endFileDownload =>
      cases h
      refine .seq (.seq (.seq (.map (Fields.makes_of_forall ?_))))
      intro recipient token count files network
      exact tolerates_bind (tolerates_checkCount _ _ _) fun _ _ =>
        tolerates_bind (tolerates_account _ _ _) fun _ _ =>
        tolerates_bind (tolerates_ofField _ _ _) fun _ _ => tolerates_ok _

end Payload

namespace Transaction

theorem tolerates_infoOf (report : Option InfoDocument) : Tolerates (infoOf report) := by
  cases report with
  | none => exact tolerates_ok none
  | some d =>
      have hinfo : Tolerates (Info.ofDocument d) :=
        tolerates_bind (tolerates_ofOptionalField _ _ _) fun _ _ =>
          tolerates_bind (tolerates_ofOptionalField _ _ _) fun _ _ =>
          tolerates_bind (tolerates_ofOptionalField _ _ _) fun _ _ => tolerates_ok _
      intro expected actual h
      unfold infoOf at h
      simp only [] at h
      split at h
      · next hread =>
          cases h
          exact hinfo expected actual hread
      · cases h

theorem tolerates_ofDocument (d : HeaderDocument) (info : Option Info) :
    Tolerates (Header.ofDocument d info) := by
  have htype : Tolerates (TransactionType.ofCode d.code) := by
    intro expected actual h
    cases TransactionType.ofCode_error h
  refine tolerates_bind htype fun type _ => ?_
  simp only []
  split
  · exact fun expected actual h => nomatch h
  · exact tolerates_bind (tolerates_ok _) fun network _ =>
      tolerates_bind (tolerates_ofOptionalField _ _ _) fun _ _ =>
      tolerates_bind (tolerates_ofOptionalField _ _ _) fun _ _ => tolerates_ok _

theorem tolerates_envelope {α : Type} (own : Fields α) (document : Json) :
    Tolerates (envelope own document) := by
  intro expected actual h
  unfold envelope at h
  split at h
  · cases h
  · simp only [] at h
    split at h <;> cases h
  · cases h

theorem tolerates_singleOfJson {shape : Shape} {own : Fields PayloadDocument}
    (hfields : Payload.fields? shape = some own) (document : Json) :
    Tolerates (singleOfJson own document) := by
  refine tolerates_bind (tolerates_envelope own document) fun (d, make, report) henvelope => ?_
  have hmake := envelope_makes (Payload.fields_tolerate hfields) henvelope
  exact tolerates_bind (tolerates_infoOf report) fun info _ =>
    tolerates_bind (tolerates_ofDocument d info) fun header _ =>
    tolerates_bind (hmake header.network) fun _ _ => tolerates_ok _

theorem tolerates_aggregateOfJson {document : Json}
    {readInner : Unit → Except TransactionError (List Transaction)}
    (hinner : Tolerates (readInner ())) : Tolerates (aggregateOfJson document readInner) := by
  refine tolerates_bind (tolerates_envelope aggregateFields document)
    fun (d, (_, cosignatures), report) _ => ?_
  exact tolerates_bind (tolerates_infoOf report) fun info _ =>
    tolerates_bind (tolerates_ofDocument d info) fun header _ =>
    tolerates_bind hinner fun _ _ =>
    tolerates_bind (tolerates_mapM fun c _ =>
      tolerates_bind (tolerates_account _ _ _) fun _ _ =>
      tolerates_bind (tolerates_ofField _ _ _) fun _ _ => tolerates_ok _) fun _ _ =>
    tolerates_ok _

theorem tolerates_declaredJsonType (document : Json) : Tolerates (declaredJsonType document) := by
  intro expected actual h
  unfold declaredJsonType at h
  split at h
  · cases h
  · split at h
    · cases h
    · split at h
      · cases h
      · split at h
        · cases TransactionType.ofCode_error h
        · cases h
    · cases h

theorem tolerates_checkInner {result : Except TransactionError Transaction}
    (h : Tolerates result) : Tolerates (checkInner result) := by
  intro expected actual heq
  unfold checkInner at heq
  split at heq
  · cases heq
    exact h expected actual rfl
  · split at heq <;> cases heq

/-- What the check at the end compares is the declared type with itself. -/
theorem tolerates_check {result : Except TransactionError Transaction} {document : Json}
    {type : TransactionType} (hdeclared : declaredJsonType document = .ok type)
    (hresult : Tolerates result)
    (htype : ∀ tx, result = .ok tx → declaredJsonType document = .ok tx.type) :
    Tolerates (result >>= fun tx => type.shape.check tx.type >>= fun _ => .ok tx) := by
  refine tolerates_bind hresult fun tx htx => ?_
  have hsame := htype tx htx
  rw [hdeclared] at hsame
  cases hsame
  have hcheck : tx.type.shape.check tx.type = .ok () := Shape.check_ok.2 rfl
  rw [hcheck]
  exact tolerates_ok tx

theorem tolerates_ofJsonAs {document : Json} {type : TransactionType}
    (hdeclared : declaredJsonType document = .ok type)
    (hinner : ∀ value ∈ innerDocuments document, Tolerates (ofJson value)) :
    Tolerates (ofJsonAs type.shape document) := by
  unfold ofJsonAs ofJsonWith
  cases hfields : Payload.fields? type.shape with
  | some own =>
      exact tolerates_check hdeclared (tolerates_singleOfJson hfields document)
        fun _ => declaredJsonType_of_single
  | none =>
      refine tolerates_check hdeclared (tolerates_aggregateOfJson ?_)
        fun _ => declaredJsonType_of_aggregate
      exact tolerates_mapM fun value hvalue => tolerates_checkInner (hinner value hvalue)

/-- The transactions in an aggregate are read by their declared types as well. -/
theorem tolerates_ofJson (document : Json) : Tolerates (ofJson document) := by
  rw [ofJson_eq]
  split
  · next e hdeclared =>
      intro expected actual h
      cases h
      exact tolerates_declaredJsonType document expected actual hdeclared
  · next type hdeclared =>
      exact tolerates_ofJsonAs hdeclared fun value hvalue => tolerates_ofJson value
termination_by sizeOf document
decreasing_by exact sizeOf_lt_of_mem_innerDocuments hvalue

theorem tolerates_ofBytes (b : List UInt8) : Tolerates (ofBytes b) := by
  intro expected actual h
  rcases ofBytes_error h with hfault | ⟨_, _, _, heq⟩
  · cases hfault
  · cases heq

/-! ## Reading by the declared type and reading as a shape -/

/-- The reader of a shape gives just what reading by the declared type gives, if that
has the shape. So what is read bears a type of what it holds and is read by the reader
of one shape alone, and reading by the declared type never ends with a complaint about
the type. -/
theorem ofBytesAs_and_ofJsonAs_iff :
    (∀ (shape : Shape) (b : List UInt8) (tx : Transaction),
      ofBytesAs shape b = .ok tx ↔ ofBytes b = .ok tx ∧ tx.shape = shape) ∧
    (∀ (shape : Shape) (v : Json) (tx : Transaction),
      ofJsonAs shape v = .ok tx ↔ ofJson v = .ok tx ∧ tx.shape = shape) ∧
    (∀ (shape other : Shape) (b : List UInt8) (tx tx' : Transaction),
      ofBytesAs shape b = .ok tx → ofBytesAs other b = .ok tx' → shape = other) ∧
    (∀ (shape other : Shape) (v : Json) (tx tx' : Transaction),
      ofJsonAs shape v = .ok tx → ofJsonAs other v = .ok tx' → shape = other) ∧
    (∀ (b : List UInt8) (tx : Transaction), ofBytes b = .ok tx → tx.type.shape = tx.shape) ∧
    (∀ (v : Json) (tx : Transaction), ofJson v = .ok tx → tx.type.shape = tx.shape) ∧
    (∀ (b : List UInt8) (expected actual : TransactionType),
      ofBytes b ≠ .error (.typeMismatch expected actual)) ∧
    ∀ (v : Json) (expected actual : TransactionType),
      ofJson v ≠ .error (.typeMismatch expected actual) := by
  refine ⟨fun _ _ _ => ofBytesAs_iff, fun _ _ _ => ofJsonAs_iff,
    fun shape other b tx tx' h h' => ?_, fun shape other v tx tx' h h' => ?_,
    fun b tx h => (ofBytes_ok.1 h).1.1.type, fun v tx h => (ofJson_sound h).1.type,
    tolerates_ofBytes, tolerates_ofJson⟩
  · obtain ⟨hread, rfl⟩ := ofBytesAs_iff.1 h
    obtain ⟨hread', rfl⟩ := ofBytesAs_iff.1 h'
    rw [hread] at hread'
    cases hread'
    rfl
  · obtain ⟨hread, rfl⟩ := ofJsonAs_iff.1 h
    obtain ⟨hread', rfl⟩ := ofJsonAs_iff.1 h'
    rw [hread] at hread'
    cases hread'
    rfl

/-- Both forms of the unkempt aggregate are read by the reader of aggregates and by no other. -/
theorem ofBytesAs_and_ofJsonAs_iff_unkempt : ∃ (b : List UInt8) (v : Json),
    ofBytesAs .aggregate b = .ok unkempt.normal.carried ∧
      (∀ shape tx, ofBytesAs shape b = .ok tx → shape = .aggregate) ∧
    ofJsonAs .aggregate v = .ok unkempt.normal ∧
      (∀ shape tx, ofJsonAs shape v = .ok tx → shape = .aggregate) ∧
    unkempt.normal.type.shape = .aggregate := by
  obtain ⟨hbytes, hjson, hbytes', hjson', -, htype, -, -⟩ := ofBytesAs_and_ofJsonAs_iff
  obtain ⟨b, hb⟩ := unkempt_toBytes
  obtain ⟨v, hv⟩ : ∃ v, unkempt.toJson = .ok v := ⟨_, rfl⟩
  have hread := (toJson_reads unkempt_wellTyped hv).2
  have haggregate := (hbytes .aggregate b _).2 ⟨ofBytes_of_toBytes unkempt_wellTyped hb, rfl⟩
  have haggregate' := (hjson .aggregate v _).2 ⟨hread, rfl⟩
  exact ⟨b, v, haggregate, fun shape tx h => hbytes' _ _ b _ _ h haggregate, haggregate',
    fun shape tx h => hjson' _ _ v _ _ h haggregate', htype v _ hread⟩

end Transaction

end DriveChain
