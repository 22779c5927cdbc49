import DriveChain.Proofs.Canonical
import DriveChain.Proofs.Size
import DriveChain.Proofs.TransactionDocument

/-!
# The two forms carry the same transactions

Bytes and documents are read by readers of their own, but whatever either of them
gives is in normal form, bears a type of what it is, and has lists whose counts
fit. That is all it takes for a document to be written, and for bytes nearly so:
they also have to be so few that their number fits the four bytes of a size.

So what was read from bytes goes through a document and back to the same bytes,
and what was read from a document goes through another one unchanged, and
through bytes with nothing lost but what bytes never carry.
-/

namespace DriveChain

open Json (Fields)

/-! ## What can be written -/

namespace Payload

theorem exists_count {n : Nat} :
    (∃ count : UInt16, n = count.toNat) ↔ n < UInt16.size := by
  refine ⟨fun h => ?_, fun h => ?_⟩
  · obtain ⟨count, rfl⟩ := h
    exact count.toNat_lt
  · exact ⟨UInt16.ofNat n, (UInt16.toNat_ofNat_of_lt' h).symm⟩

theorem countsFit_of_bytes {p : Payload} {b : List UInt8} (h : p.bytes = .ok b) :
    p.CountsFit := by
  intro n hn
  cases p with
  | driveFileSystem change =>
      obtain ⟨adds, removes, hadds, hremoves, _⟩ := bytes_driveFileSystem_ok.1 h
      simp only [counts, List.mem_cons, List.not_mem_nil, or_false] at hn
      rcases hn with rfl | rfl
      · exact exists_count.1 ⟨adds, hadds⟩
      · exact exists_count.1 ⟨removes, hremoves⟩
  | filesDeposit _ files =>
      obtain ⟨count, hlen, _⟩ := bytes_filesDeposit_ok.1 h
      rw [List.mem_singleton.1 hn]
      exact exists_count.1 ⟨count, hlen⟩
  | driveFilesReward uploads =>
      obtain ⟨count, hlen, _⟩ := bytes_driveFilesReward_ok.1 h
      rw [List.mem_singleton.1 hn]
      exact exists_count.1 ⟨count, hlen⟩
  | startFileDownload _ files =>
      obtain ⟨count, hlen, _⟩ := bytes_startFileDownload_ok.1 h
      rw [List.mem_singleton.1 hn]
      exact exists_count.1 ⟨count, hlen⟩
  | endFileDownload _ _ files =>
      obtain ⟨count, hlen, _⟩ := bytes_endFileDownload_ok.1 h
      rw [List.mem_singleton.1 hn]
      exact exists_count.1 ⟨count, hlen⟩
  | _ => cases hn

theorem counts_eq (p : Payload) : p.counts = p.counted.map fun l => l.2 := by
  cases p <;> rfl

end Payload

namespace Transaction

/-- The lengths of the lists that are counted in the payload. -/
def counts : Transaction → List Nat
  | .single _ payload => payload.counts
  | .aggregate _ _ _ => []

/-- Transactions with no list so long that its count does not fit. -/
structure CountsFit (tx : Transaction) : Prop where
  own : ∀ n ∈ tx.counts, n < UInt16.size
  inner : ∀ part ∈ tx.inner, ∀ n ∈ part.counts, n < UInt16.size

theorem countsFit_of_innerBytes {txs : List Transaction} {b : List UInt8}
    (hshape : ∀ tx ∈ txs, tx.shape ≠ .aggregate) (hb : innerBytes txs = .ok b) :
    ∀ tx ∈ txs, ∀ n ∈ tx.counts, n < UInt16.size := by
  induction txs generalizing b with
  | nil =>
      intro tx htx
      cases htx
  | cons tx rest ih =>
      rw [List.forall_mem_cons] at hshape
      obtain ⟨x, y, hx, hy, rfl⟩ := innerBytes_cons.1 hb
      refine List.forall_mem_cons.2 ⟨?_, ih hshape.2 hy⟩
      obtain ⟨header, payload, rfl⟩ := exists_single hshape.1
      obtain ⟨_, body, _, hbody, _⟩ := toEmbeddedBytes_ok.1 hx
      rw [payloadBytes] at hbody
      exact Payload.countsFit_of_bytes hbody

/-- What fits into bytes fits into a document. -/
theorem countsFit_of_toBytes {tx : Transaction} {b : List UInt8} (h : tx.WellTyped)
    (hb : tx.toBytes = .ok b) : tx.CountsFit := by
  obtain ⟨_, body, _, hbody, _⟩ := toBytes_ok.1 hb
  cases tx with
  | single header payload =>
      rw [payloadBytes] at hbody
      refine ⟨Payload.countsFit_of_bytes hbody, fun part hpart => ?_⟩
      cases hpart
  | aggregate header inner cosignatures =>
      obtain ⟨_, parts, hparts, _⟩ := payloadBytes_aggregate_ok.1 hbody
      refine ⟨fun n hn => (by cases hn), ?_⟩
      exact countsFit_of_innerBytes (fun part hpart => (h.inner part hpart).2) hparts

theorem toJson_single (header : Header) {payload : Payload} (h : payload.CountsFit) :
    ∃ v, (single header payload).toJson = .ok v := by
  obtain ⟨ms, hms⟩ := Payload.members_of_countsFit h
  rw [toJson, hms]
  exact ⟨_, rfl⟩

theorem toJsonList_of_countsFit {txs : List Transaction}
    (hshape : ∀ tx ∈ txs, tx.shape ≠ .aggregate)
    (h : ∀ tx ∈ txs, ∀ n ∈ tx.counts, n < UInt16.size) : ∃ vs, toJsonList txs = .ok vs := by
  induction txs with
  | nil => exact ⟨[], by rw [toJsonList]⟩
  | cons tx rest ih =>
      rw [List.forall_mem_cons] at hshape h
      obtain ⟨vs, hvs⟩ := ih hshape.2 h.2
      obtain ⟨header, payload, rfl⟩ := exists_single hshape.1
      obtain ⟨v, hv⟩ := toJson_single header h.1
      exact ⟨v :: vs, toJsonList_cons.2 ⟨v, vs, hv, hvs, rfl⟩⟩

theorem toJson_of_countsFit {tx : Transaction} (h : tx.WellTyped) (hc : tx.CountsFit) :
    ∃ v, tx.toJson = .ok v := by
  cases tx with
  | single header payload => exact toJson_single header hc.own
  | aggregate header inner cosignatures =>
      have hshape : ∀ part ∈ inner, part.shape ≠ .aggregate :=
        fun part hpart => (h.inner part hpart).2
      obtain ⟨vs, hvs⟩ := toJsonList_of_countsFit hshape hc.inner
      rw [toJson, hvs]
      exact ⟨_, rfl⟩

theorem counted_of_counts {tx : Transaction} (hshape : tx.shape ≠ .aggregate)
    (h : ∀ n ∈ tx.counts, n < UInt16.size) : ∀ l ∈ tx.counted, l.2 < UInt16.size := by
  obtain ⟨header, payload, rfl⟩ := exists_single hshape
  rw [counts, Payload.counts_eq, List.forall_mem_map] at h
  rw [counted]
  exact h

theorem countedList_of_counts {txs : List Transaction}
    (hshape : ∀ tx ∈ txs, tx.shape ≠ .aggregate)
    (h : ∀ tx ∈ txs, ∀ n ∈ tx.counts, n < UInt16.size) :
    ∀ l ∈ countedList txs, l.2 < UInt16.size := by
  induction txs with
  | nil =>
      intro l hl
      rw [countedList] at hl
      cases hl
  | cons tx rest ih =>
      rw [List.forall_mem_cons] at hshape h
      rw [countedList, List.forall_mem_append]
      exact ⟨counted_of_counts hshape.1 h.1, ih hshape.2 h.2⟩

theorem toBytes_of_countsFit {tx : Transaction} (h : tx.WellTyped) (hc : tx.CountsFit)
    (hsize : tx.size < UInt32.size) : ∃ b, tx.toBytes = .ok b := by
  rw [← failure_eq_none, failure_toBytes hsize, firstLong_eq_none]
  cases tx with
  | single header payload => exact counted_of_counts payload.shape_ne_aggregate hc.own
  | aggregate header inner cosignatures =>
      rw [counted]
      exact countedList_of_counts (fun part hpart => (h.inner part hpart).2) hc.inner

/-! ## What is read -/

theorem envelope_makes {α : Type} {own : Fields α} {P : α → Prop} (h : own.Makes P)
    {document : Json} {d : HeaderDocument} {a : α} {report : Option InfoDocument}
    (hread : envelope own document = .ok (d, a, report)) : P a := by
  obtain ⟨⟨members, hget⟩, hparts⟩ := envelope_ok.1 hread
  have hmakes : (envelopeFields own).Makes fun parts => P parts.1.2 := by
    refine .seq (.map (Fields.makes_required fun source value part hpart report => ?_))
    exact h.beside hpart
  cases document with
  | object members => exact hmakes.of_ofObject hparts
  | _ => cases hget

/-- Whatever is read from a document as a transaction of a shape is in normal form,
bears a type of what it is and has no list that is too long, if that holds of what
is read from the documents inside. -/
theorem ofJsonAs_sound_of {shape : Shape} {document : Json} {tx : Transaction}
    (ih : ∀ value ∈ innerDocuments document, ∀ part, ofJson value = .ok part →
      part.WellTyped ∧ part.IsNormal ∧ part.CountsFit)
    (h : ofJsonAs shape document = .ok tx) :
    tx.WellTyped ∧ tx.IsNormal ∧ tx.CountsFit := by
  obtain ⟨htype, hread⟩ := ofJsonAs_ok.1 h
  rcases hread with ⟨own, hfields, hread⟩ | ⟨hshape, hread⟩
  · obtain ⟨d, make, report, info, header, payload, henvelope, _, hheader, hmake, rfl⟩ :=
      singleOfJson_ok.1 hread
    obtain ⟨hshape, hon, hcounts⟩ :=
      envelope_makes (Payload.fields_make hfields) henvelope header.network payload hmake
    refine ⟨⟨htype.trans hshape.symm, ?_⟩, ⟨Header.isNormal_of_ofDocument hheader,
      Payload.accounts_of_on_eq_self hon, ?_⟩, ⟨hcounts, ?_⟩⟩
    all_goals
      intro part hpart
      cases hpart
  · obtain ⟨d, transactions, documents, report, info, header, inner, cosignatures, _, _,
      hheader, hinner, hcosignatures, rfl⟩ := aggregateOfJson_ok.1 hread
    have hparts : ∀ part ∈ inner, (part.WellTyped ∧ part.IsNormal ∧ part.CountsFit) ∧
        part.type.shape ≠ .aggregate := by
      intro part hpart
      obtain ⟨value, hvalue, hpart⟩ := mem_of_mapM_ok hinner part hpart
      obtain ⟨hpart, hne⟩ := checkInner_ok.1 hpart
      exact ⟨ih value hvalue part hpart, hne⟩
    refine ⟨⟨htype.trans hshape, fun part hpart => ?_⟩,
      ⟨Header.isNormal_of_ofDocument hheader, ?_, fun part hpart => ?_⟩,
      ⟨fun n hn => (by cases hn), fun part hpart => ?_⟩⟩
    · obtain ⟨⟨htyped, _⟩, hne⟩ := hparts part hpart
      exact ⟨htyped.type, htyped.type ▸ hne⟩
    · refine List.forall_mem_map.2 fun c hc => ?_
      obtain ⟨d, _, hd⟩ := mem_of_mapM_ok hcosignatures c hc
      exact congrArg Cosignature.signer (Cosignature.on_of_ofDocument hd)
    · obtain ⟨⟨_, hnormal, _⟩, _⟩ := hparts part hpart
      exact ⟨hnormal.header, hnormal.accounts⟩
    · obtain ⟨⟨_, _, hcounts⟩, _⟩ := hparts part hpart
      exact hcounts.own

/-- The transactions in an aggregate are read in the same way as those outside. -/
theorem ofJson_sound {document : Json} {tx : Transaction} (h : ofJson document = .ok tx) :
    tx.WellTyped ∧ tx.IsNormal ∧ tx.CountsFit := by
  obtain ⟨type, _, hread⟩ := ofJson_ok.1 h
  exact ofJsonAs_sound_of (fun value hvalue part hpart => ofJson_sound hpart) hread
termination_by sizeOf document
decreasing_by exact sizeOf_lt_of_mem_innerDocuments hvalue

theorem ofJsonAs_sound {shape : Shape} {document : Json} {tx : Transaction}
    (h : ofJsonAs shape document = .ok tx) : tx.WellTyped ∧ tx.IsNormal ∧ tx.CountsFit :=
  ofJsonAs_sound_of (fun _ _ _ => ofJson_sound) h

/-! ## From one form to the other -/

/-- A transaction that was read from bytes is read from its document too, and still
has the same bytes. A transaction that was read from a document is read again from
the document it has now, and if it is not too large, it is read from its bytes up
to what bytes do not carry. -/
theorem wireForms_agree :
    (∀ (b : List UInt8) (tx : Transaction), ofBytes b = .ok tx →
      ∃ v, tx.toJson = .ok v ∧ ofJson v = .ok tx ∧ tx.toBytes = .ok b) ∧
    (∀ (v : Json) (tx : Transaction), ofJson v = .ok tx → tx.size < UInt32.size →
      (∃ v', tx.toJson = .ok v' ∧ ofJson v' = .ok tx) ∧
        ∃ b, tx.toBytes = .ok b ∧ ofBytes b = .ok tx.carried) := by
  have hdocument : ∀ tx : Transaction, tx.WellTyped → tx.IsNormal → tx.CountsFit →
      ∃ v, tx.toJson = .ok v ∧ ofJson v = .ok tx := by
    intro tx htyped hnormal hcounts
    obtain ⟨v, hv⟩ := toJson_of_countsFit htyped hcounts
    have hread := (toJson_reads htyped hv).2
    rw [normal_eq_self htyped hnormal] at hread
    exact ⟨v, hv, hread⟩
  refine ⟨fun b tx h => ?_, fun v tx h hsize => ?_⟩
  · obtain ⟨⟨htyped, hcarried⟩, hb⟩ := ofBytes_ok.1 h
    obtain ⟨v, hv, hread⟩ :=
      hdocument tx htyped hcarried.toIsNormal (countsFit_of_toBytes htyped hb)
    exact ⟨v, hv, hread, hb⟩
  · obtain ⟨htyped, hnormal, hcounts⟩ := ofJson_sound h
    refine ⟨hdocument tx htyped hnormal hcounts, ?_⟩
    obtain ⟨b, hb⟩ := toBytes_of_countsFit htyped hcounts hsize
    have hwritten := toBytes_normal_carried htyped hb
    rw [normal_eq_self htyped hnormal] at hwritten
    exact ⟨b, hb, ofBytes_ok.2
      ⟨⟨wellTyped_carried htyped, isCarried_carried hnormal⟩, hwritten⟩⟩

/-- What the bytes of the unkempt aggregate are read as goes through a document, and what its document
is read as goes through bytes, which lose something of it. -/
theorem wireForms_agree_unkempt : ∃ (b b' : List UInt8) (v v' : Json),
    ofBytes b = .ok unkempt.normal.carried ∧
      unkempt.normal.carried.toJson = .ok v ∧ ofJson v = .ok unkempt.normal.carried ∧
    ofJson v' = .ok unkempt.normal ∧ unkempt.normal.toBytes = .ok b' ∧
      ofBytes b' = .ok unkempt.normal.carried ∧ unkempt.normal.carried ≠ unkempt.normal := by
  obtain ⟨hbytes, hjson⟩ := wireForms_agree
  obtain ⟨b, hb⟩ := unkempt_toBytes
  have hread := ofBytes_of_toBytes unkempt_wellTyped hb
  obtain ⟨v, hv, hread', -⟩ := hbytes b _ hread
  obtain ⟨v', hv'⟩ : ∃ v', unkempt.toJson = .ok v' := ⟨_, rfl⟩
  have hnormal := (toJson_reads unkempt_wellTyped hv').2
  obtain ⟨-, b', hb', hcarried⟩ := hjson v' _ hnormal (by decide)
  refine ⟨b, b', v, v', hread, hv, hread', hnormal, hb', hcarried, fun heq => ?_⟩
  rw [heq] at hcarried
  cases info_of_ofBytes hcarried

end Transaction

end DriveChain
