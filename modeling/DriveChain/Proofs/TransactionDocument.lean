import DriveChain.Proofs.PayloadDocument

/-!
# Transactions are read back from their documents

The document of a transaction is an envelope. Inside it, header and payload share
one object, and a report stands beside that object if there is one. What is
written into an envelope is read out of it again, whatever payload it is; the
inner transactions of an aggregate are envelopes of their own, and are kept as
they are while the one around them is read.

So a transaction is read back in its normal form, reports and the headers of
inner transactions in full.
-/

namespace DriveChain

open Json (Decoder Fields nestedName)

namespace Transaction

/-! ## Envelopes -/

/-- The fields of an envelope. -/
def envelopeFields {α : Type} (own : Fields α) :
    Fields ((HeaderDocument × α) × Option InfoDocument) :=
  Prod.mk <$> .required "transaction" (own.beside "a transaction" HeaderDocument.fields)
    <*> .nullable "meta" InfoDocument.decoder

theorem envelopeFields_nodup {α : Type} (own : Fields α) :
    (nestedName :: (envelopeFields own).names).Nodup := by
  show [nestedName, "transaction", "meta"].Nodup
  decide

theorem envelope_ok {α : Type} {own : Fields α} {document : Json} {header : HeaderDocument}
    {rest : α} {info : Option InfoDocument} :
    envelope own document = .ok (header, rest, info) ↔
      (∃ members, document.get? "transaction" = some (.object members)) ∧
        (envelopeFields own).record "an envelope" .value document =
          .ok ((header, rest), info) := by
  unfold envelope
  split
  · next hget => simp [hget]
  · next members hget =>
      rw [← envelopeFields]
      cases hparts : (envelopeFields own).record "an envelope" .value document with
      | error e => simp [hparts]
      | ok parts =>
          obtain ⟨⟨header', rest'⟩, info'⟩ := parts
          simp [hparts, hget, and_assoc]
  · next value hne hget =>
      refine ⟨fun h => (by cases h), fun h => ?_⟩
      obtain ⟨⟨members, hmembers⟩, _⟩ := h
      rw [hget] at hmembers
      cases hmembers
      exact (hne members rfl).elim

section Envelope

variable {α : Type} {own : Fields α} {ms : List (String × Json)} {a : α}

/-- The members of an envelope are those of a record of two. -/
theorem envelope_written (hown : own.Written ms a)
    (hnames : (nestedName :: (HeaderDocument.fields.names ++ own.names)).Nodup)
    (header : Header) :
    (envelopeFields own).Written
      (("transaction", Json.ofMembers (header.members ++ ms)) ::
        optionalMember "meta" (fun info => Json.ofMembers (Info.members info)) header.info)
      ((header.document, a), header.info.map Info.document) := by
  have htransaction := Fields.written_required "transaction"
    (header.document.members_written.beside_reads hown hnames "a transaction")
  have hmeta := Fields.written_nullable "meta" Info.members_reads
    (fun _ h => Json.noConfusion h) header.info
  exact (htransaction.map Prod.mk).seq hmeta

theorem wrap_reads (hown : own.Written ms a)
    (hnames : (nestedName :: (HeaderDocument.fields.names ++ own.names)).Nodup)
    (header : Header) :
    ((envelopeFields own).record "an envelope").Reads (wrap header ms)
      ((header.document, a), header.info.map Info.document) :=
  (envelope_written hown hnames header).ofMembers_reads (envelopeFields_nodup own) "an envelope"

theorem get?_wrap (hown : own.Written ms a)
    (hnames : (nestedName :: (HeaderDocument.fields.names ++ own.names)).Nodup)
    (header : Header) :
    (wrap header ms).get? "transaction" = some (Json.ofMembers (header.members ++ ms)) :=
  Json.get?_ofMembers ((List.nodup_cons.1 (envelopeFields_nodup own)).2.sublist
    (envelope_written hown hnames header).names) List.mem_cons_self

/-- What the members of a header and of a payload say is found in the envelope. -/
theorem get?_transaction (hown : own.Written ms a)
    (hnames : (nestedName :: (HeaderDocument.fields.names ++ own.names)).Nodup)
    (header : Header) {name : String} {value : Json} (hmem : (name, value) ∈ header.members ++ ms) :
    (Json.ofMembers (header.members ++ ms)).get? name = some value := by
  have hwritten : (Prod.mk <$> HeaderDocument.fields <*> own).Written (header.members ++ ms)
      (header.document, a) := (header.document.members_written.map Prod.mk).seq hown
  exact Json.get?_ofMembers ((List.nodup_cons.1 hnames).2.sublist hwritten.names) hmem

theorem envelope_wrap (hown : own.Written ms a)
    (hnames : (nestedName :: (HeaderDocument.fields.names ++ own.names)).Nodup)
    (header : Header) :
    envelope own (wrap header ms) = .ok (header.document, a, header.info.map Info.document) :=
  envelope_ok.2 ⟨⟨_, get?_wrap hown hnames header⟩,
    (wrap_reads hown hnames header).read .value⟩

theorem declaredJsonType_wrap (hown : own.Written ms a)
    (hnames : (nestedName :: (HeaderDocument.fields.names ++ own.names)).Nodup)
    (header : Header) : declaredJsonType (wrap header ms) = .ok header.type := by
  have hmem : ("type", Json.natural header.type.code.toNat) ∈ header.members ++ ms := by
    simp [Header.members, HeaderDocument.members, Header.document]
  unfold declaredJsonType
  rw [get?_wrap hown hnames header]
  simp only []
  rw [get?_transaction hown hnames header hmem]
  have hlt := header.type.code.toNat_lt
  show (if ((header.type.code.toNat : Nat) : Int) < 0 then
      .error (.malformed "transaction.type" .notInteger)
    else if ((header.type.code.toNat : Nat) : Int) < (UInt16.size : Int) then
      TransactionType.ofCode (UInt16.ofNat (header.type.code.toNat : Int).toNat)
    else .error (.malformed "transaction.type" .exceedsType)) = Except.ok header.type
  rw [if_neg (by omega), if_pos (by simp only [UInt16.size]; omega), Int.toNat_natCast,
    UInt16.ofNat_toNat]
  exact TransactionType.ofCode_ok.2 rfl

theorem infoOf_document (info : Option Info) : infoOf (info.map Info.document) = .ok info := by
  cases info with
  | none => rfl
  | some info =>
      rw [Option.map_some, infoOf, Info.ofDocument_document]

end Envelope

/-! ## Steps of the reader -/

theorem singleOfJson_ok {own : Fields PayloadDocument} {document : Json} {tx : Transaction} :
    singleOfJson own document = .ok tx ↔ ∃ d make report info header payload,
      envelope own document = .ok (d, make, report) ∧ infoOf report = .ok info ∧
      Header.ofDocument d info = .ok header ∧ make header.network = .ok payload ∧
      single header payload = tx := by
  unfold singleOfJson
  simp only [except_bind_ok, except_pure_ok, Prod.exists, exists_and_left]

theorem aggregateOfJson_ok {document : Json}
    {readInner : Unit → Except TransactionError (List Transaction)} {tx : Transaction} :
    aggregateOfJson document readInner = .ok tx ↔
      ∃ d transactions documents report info header inner cosignatures,
        envelope aggregateFields document = .ok (d, (transactions, documents), report) ∧
        infoOf report = .ok info ∧ Header.ofDocument d info = .ok header ∧
        readInner () = .ok inner ∧
        documents.mapM (Cosignature.ofDocument header.network) = .ok cosignatures ∧
        aggregate header inner cosignatures = tx := by
  unfold aggregateOfJson
  simp only [except_bind_ok, except_pure_ok, Prod.exists, exists_and_left]

/-- Reading by the declared type is reading as a transaction of its shape. -/
theorem ofJson_eq (document : Json) :
    ofJson document = match declaredJsonType document with
      | .error e => .error e
      | .ok type => ofJsonAs type.shape document := by
  rw [ofJson, List.mapM_subtype (g := fun value => checkInner (ofJson value)) fun _ _ => rfl,
    List.unattach_attach]
  rfl

theorem ofJson_ok {document : Json} {tx : Transaction} :
    ofJson document = .ok tx ↔ ∃ type, declaredJsonType document = .ok type ∧
      ofJsonAs type.shape document = .ok tx := by
  rw [ofJson_eq]
  cases declaredJsonType document with
  | error e => simp
  | ok type => simp

theorem fields?_eq_none {shape : Shape} : Payload.fields? shape = none ↔ shape = .aggregate := by
  cases shape <;> simp [Payload.fields?]

theorem ofJsonAs_ok {shape : Shape} {document : Json} {tx : Transaction} :
    ofJsonAs shape document = .ok tx ↔ tx.type.shape = shape ∧
      ((∃ own, Payload.fields? shape = some own ∧ singleOfJson own document = .ok tx) ∨
        shape = .aggregate ∧ aggregateOfJson document (fun _ =>
          (innerDocuments document).mapM fun value => checkInner (ofJson value)) = .ok tx) := by
  unfold ofJsonAs ofJsonWith
  rw [← fields?_eq_none]
  cases Payload.fields? shape with
  | none =>
      simp only [except_bind_ok, except_pure_ok, Shape.check_ok, exists_const,
        exists_eq_right_right]
      simp [and_comm]
  | some own =>
      simp only [except_bind_ok, except_pure_ok, Shape.check_ok, exists_const,
        exists_eq_right_right]
      simp [and_comm]

theorem isAggregate_iff {type : TransactionType} :
    type.isAggregate = true ↔ type.shape = .aggregate := by
  cases type <;> simp [TransactionType.isAggregate, TransactionType.shape]

theorem checkInner_ok {result : Except TransactionError Transaction} {tx : Transaction} :
    checkInner result = .ok tx ↔ result = .ok tx ∧ tx.type.shape ≠ .aggregate := by
  rw [ne_eq, ← isAggregate_iff]
  unfold checkInner
  cases result with
  | error e => simp
  | ok tx' =>
      show (if tx'.type.isAggregate = true then _ else Except.ok tx') = .ok tx ↔ _
      by_cases haggregate : tx'.type.isAggregate = true
      · rw [if_pos haggregate]
        simp only [reduceCtorEq, Except.ok.injEq, false_iff]
        intro h
        rw [h.1] at haggregate
        exact h.2 haggregate
      · rw [if_neg haggregate, Except.ok.injEq]
        refine ⟨fun heq => ⟨heq, ?_⟩, fun h => h.1⟩
        rw [← heq]
        exact haggregate

/-! ## Reading what was written -/

theorem toJsonList_cons {tx : Transaction} {rest : List Transaction} {vs : List Json} :
    toJsonList (tx :: rest) = .ok vs ↔
      ∃ v vs', tx.toJson = .ok v ∧ toJsonList rest = .ok vs' ∧ vs = v :: vs' := by
  rw [toJsonList]
  cases tx.toJson with
  | error e => simp
  | ok v =>
      cases toJsonList rest with
      | error e => simp
      | ok vs' => simp [eq_comm]

theorem ofJson_single {header : Header} {payload : Payload} {v : Json}
    (htype : header.type.shape = payload.shape) (hv : (single header payload).toJson = .ok v) :
    v.Plain ∧ ofJson v = .ok (single header payload).normal := by
  rw [toJson] at hv
  split at hv
  · cases hv
  · next ms hms =>
      cases hv
      obtain ⟨own, hfields, document, hown, hmake⟩ := Payload.members_written hms
      have hnames := Payload.names_nodup hfields
      refine ⟨(wrap_reads hown hnames header).plain, ?_⟩
      refine ofJson_ok.2 ⟨header.type, declaredJsonType_wrap hown hnames header, ?_⟩
      rw [normal_single, htype]
      refine ofJsonAs_ok.2 ⟨htype, Or.inl ⟨own, hfields, singleOfJson_ok.2 ?_⟩⟩
      exact ⟨_, document, _, header.info, header.normal, _, envelope_wrap hown hnames header,
        infoOf_document header.info, header.ofDocument_document, hmake header.network, rfl⟩

/-- Inner transactions are kept as they are written, and each is read back. -/
theorem ofJson_list {txs : List Transaction} {vs : List Json}
    (h : ∀ tx ∈ txs, tx.type.shape = tx.shape ∧ tx.shape ≠ .aggregate)
    (hvs : toJsonList txs = .ok vs) :
    (∀ v ∈ vs, v.Plain) ∧
      vs.mapM (fun value => checkInner (ofJson value)) = .ok (txs.map normal) := by
  induction txs generalizing vs with
  | nil =>
      rw [toJsonList] at hvs
      cases hvs
      exact ⟨fun v hv => (by cases hv), rfl⟩
  | cons tx rest ih =>
      obtain ⟨v, vs', hv, hvs', rfl⟩ := toJsonList_cons.1 hvs
      rw [List.forall_mem_cons] at h
      obtain ⟨⟨htype, hshape⟩, hrest⟩ := h
      obtain ⟨hplain, hread⟩ := ih hrest hvs'
      obtain ⟨header, payload, rfl⟩ := exists_single hshape
      obtain ⟨hplain', hread'⟩ := ofJson_single htype hv
      have hinner : checkInner (ofJson v) = .ok (single header payload).normal := by
        refine checkInner_ok.2 ⟨hread', ?_⟩
        rw [type_normal, htype]
        exact hshape
      refine ⟨List.forall_mem_cons.2 ⟨hplain', hplain⟩, ?_⟩
      rw [List.mapM_cons, hinner, hread]
      rfl

theorem aggregate_written {vs : List Json} (hplain : ∀ v ∈ vs, v.Plain)
    (cosignatures : List Cosignature) :
    aggregateFields.Written
      [("transactions", .array vs), ("cosignatures", .array (cosignatures.map Cosignature.json))]
      (vs, cosignatures.map Cosignature.document) := by
  have htransactions := Fields.written_optional "transactions" []
    (Decoder.valueList_reads hplain)
  have hcosignatures := Fields.written_list "cosignatures" Cosignature.json_reads cosignatures
  exact (htransactions.map Prod.mk).seq hcosignatures

theorem toJson_reads {tx : Transaction} {v : Json} (h : tx.WellTyped)
    (hv : tx.toJson = .ok v) : v.Plain ∧ ofJson v = .ok tx.normal := by
  cases tx with
  | single header payload => exact ofJson_single h.type hv
  | aggregate header inner cosignatures =>
      rw [toJson] at hv
      split at hv
      · cases hv
      · next vs hvs =>
          cases hv
          obtain ⟨hplain, hinner⟩ := ofJson_list h.inner hvs
          have hown := aggregate_written hplain cosignatures
          have hnames :
              (nestedName :: (HeaderDocument.fields.names ++ aggregateFields.names)).Nodup := by
            decide
          have htype : header.type.shape = .aggregate := h.type
          have hitems : innerDocuments (wrap header [("transactions", .array vs),
              ("cosignatures", .array (cosignatures.map Cosignature.json))]) = vs := by
            have hmem : ("transactions", Json.array vs) ∈ header.members ++
                [("transactions", .array vs),
                  ("cosignatures", .array (cosignatures.map Cosignature.json))] :=
              List.mem_append_right _ List.mem_cons_self
            unfold innerDocuments
            rw [get?_wrap hown hnames header, Option.bind_some,
              get?_transaction hown hnames header hmem]
          have hcosignatures : (cosignatures.map Cosignature.document).mapM
              (Cosignature.ofDocument header.network) =
                .ok (cosignatures.map (Cosignature.on header.network)) :=
            mapM_map_ok fun c _ => c.ofDocument_document header.network
          refine ⟨(wrap_reads hown hnames header).plain, ?_⟩
          refine ofJson_ok.2 ⟨header.type, declaredJsonType_wrap hown hnames header, ?_⟩
          rw [normal_aggregate, htype]
          refine ofJsonAs_ok.2 ⟨htype, Or.inr ⟨rfl, aggregateOfJson_ok.2 ?_⟩⟩
          refine ⟨_, vs, _, _, header.info, header.normal, _, _,
            envelope_wrap hown hnames header, infoOf_document header.info,
            header.ofDocument_document, ?_, hcosignatures, rfl⟩
          rw [hitems]
          exact hinner

/-- The document of a transaction is read as its normal form, and that is the
transaction itself just if it was so already. -/
theorem ofJson_toJson {tx : Transaction} {v : Json} (h : tx.WellTyped)
    (hv : tx.toJson = .ok v) :
    ofJson v = .ok tx.normal ∧ (tx.normal = tx ↔ tx.IsNormal) := by
  refine ⟨(toJson_reads h hv).2, fun heq => ?_, normal_eq_self h⟩
  rw [← heq]
  exact tx.isNormal_normal

theorem unkempt_ofJson : ∃ v, unkempt.toJson = .ok v ∧
    ofJson v = .ok unkempt.normal ∧ unkempt.normal ≠ unkempt := by
  have hjson : unkempt.toJson = .ok _ := rfl
  obtain ⟨hread, hself⟩ := ofJson_toJson unkempt_wellTyped hjson
  refine ⟨_, hjson, hread, fun heq => ?_⟩
  have hzero := (hself.1 heq).header.signature (.zero 64) rfl
  cases hzero

end Transaction

end DriveChain
