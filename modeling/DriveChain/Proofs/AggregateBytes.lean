import DriveChain.Proofs.Aggregate
import Mathlib.Data.List.Forall2

/-!
# Which aggregates are read back

Inside an aggregate every transaction begins with the number of its bytes, so
there is one way only to cut the bytes of an aggregate into those of its parts.
What is read from them is therefore a transaction for each part, with the same
bytes as the part: an aggregate is read back just if there is one for each.

The rules for parts do not ensure that. They look at what a part says it is and
not at what it holds. A part that says the truth is read back as its normal form,
less what the embedded form does not hold; a part that says something else is read
as what it says, if its bytes allow that at all.
-/

namespace DriveChain

namespace Transaction

/-! ## The parts stand apart -/

/-- Transactions of which an aggregate holds the same bytes. -/
def WrittenAlike (tx tx' : Transaction) : Prop :=
  ∃ x, tx.toEmbeddedBytes = .ok x ∧ tx'.toEmbeddedBytes = .ok x

/-- The embedded form begins with its own length. -/
theorem toEmbeddedBytes_prefix {tx : Transaction} {x : List UInt8}
    (hx : tx.toEmbeddedBytes = .ok x) : x.length < UInt32.size ∧
      ∃ body, x = bytes32 (UInt32.ofNat x.length) ++ (tx.header.identityBytes ++ body) := by
  have hlen := length_toEmbeddedBytes hx
  obtain ⟨front, body, hfront, _, hsplit⟩ := toEmbeddedBytes_ok.1 hx
  obtain ⟨hlt, rfl⟩ := Header.embeddedBytes_ok.1 hfront
  rw [← hlen] at hlt hsplit
  refine ⟨hlt, body, ?_⟩
  rw [← List.append_assoc]
  exact hsplit

theorem toEmbeddedBytes_append_inj {tx tx' : Transaction} {x x' y y' : List UInt8}
    (hx : tx.toEmbeddedBytes = .ok x) (hx' : tx'.toEmbeddedBytes = .ok x')
    (heq : x ++ y = x' ++ y') : x = x' ∧ y = y' := by
  obtain ⟨hlt, body, hsplit⟩ := toEmbeddedBytes_prefix hx
  obtain ⟨hlt', body', hsplit'⟩ := toEmbeddedBytes_prefix hx'
  have hfront : bytes32 (UInt32.ofNat x.length) = bytes32 (UInt32.ofNat x'.length) := by
    rw [hsplit, hsplit'] at heq
    simp only [List.append_assoc] at heq
    refine (List.append_inj heq ?_).1
    rw [length_bytes32, length_bytes32]
  exact List.append_inj heq (bytes32_ofNat_inj hlt hlt' hfront)

/-- The bytes of some transactions are those of others just if they are so one by
one. -/
theorem innerBytes_alike {txs txs' : List Transaction} {b : List UInt8}
    (hb : innerBytes txs = .ok b) :
    innerBytes txs' = .ok b ↔ List.Forall₂ WrittenAlike txs txs' := by
  induction txs generalizing txs' b with
  | nil =>
      cases innerBytes_nil.symm.trans hb
      cases txs' with
      | nil => exact ⟨fun _ => .nil, fun _ => innerBytes_nil⟩
      | cons tx' rest' =>
          refine ⟨fun h => ?_, fun h => (by cases h)⟩
          obtain ⟨x, y, hx, _, hxy⟩ := innerBytes_cons.1 h
          exact absurd (List.append_eq_nil_iff.1 hxy.symm).1 (toEmbeddedBytes_ne_nil hx)
  | cons tx rest ih =>
      obtain ⟨x, y, hx, hy, rfl⟩ := innerBytes_cons.1 hb
      cases txs' with
      | nil =>
          refine ⟨fun h => ?_, fun h => (by cases h)⟩
          rw [innerBytes_nil, Except.ok.injEq] at h
          exact absurd (List.append_eq_nil_iff.1 h.symm).1 (toEmbeddedBytes_ne_nil hx)
      | cons tx' rest' =>
          rw [List.forall₂_cons, ← ih hy, innerBytes_cons]
          refine ⟨fun h => ?_, fun h => ?_⟩
          · obtain ⟨x', y', hx', hy', heq⟩ := h
            obtain ⟨rfl, rfl⟩ := toEmbeddedBytes_append_inj hx hx' heq
            exact ⟨⟨x, hx, hx'⟩, hy'⟩
          · obtain ⟨⟨x', hx₁, hx'⟩, hy'⟩ := h
            cases hx.symm.trans hx₁
            exact ⟨x, y, hx', hy', rfl⟩

/-! ## Reading an aggregate back -/

/-- Transactions whose embedded form is that of one which can be read. -/
def Readable (tx : Transaction) : Prop :=
  ∃ part, part.IsPart ∧ WrittenAlike tx part

theorem forall_readable {txs : List Transaction} :
    (∀ tx ∈ txs, tx.Readable) ↔
      ∃ parts, (∀ part ∈ parts, part.IsPart) ∧ List.Forall₂ WrittenAlike txs parts := by
  induction txs with
  | nil =>
      refine ⟨fun _ => ⟨[], fun part hpart => (by cases hpart), .nil⟩, fun _ tx htx => ?_⟩
      cases htx
  | cons tx rest ih =>
      rw [List.forall_mem_cons, ih]
      refine ⟨fun h => ?_, fun h => ?_⟩
      · obtain ⟨⟨part, hpart, halike⟩, parts, hparts, hrest⟩ := h
        exact ⟨part :: parts, List.forall_mem_cons.2 ⟨hpart, hparts⟩, .cons halike hrest⟩
      · obtain ⟨parts, hparts, halike⟩ := h
        cases halike with
        | cons hfirst hrest =>
            rw [List.forall_mem_cons] at hparts
            exact ⟨⟨_, hparts.1, hfirst⟩, _, hparts.2, hrest⟩

/-- Aggregates with the same bytes have the same bytes of what they hold: those are as
many as is said in front of them. -/
theorem innerBytes_of_toBytes {header header' : Header} {inner inner' : List Transaction}
    {cosignatures cosignatures' : List Cosignature} {b : List UInt8}
    (hb : (aggregate header inner cosignatures).toBytes = .ok b)
    (hb' : (aggregate header' inner' cosignatures').toBytes = .ok b) :
    ∃ parts, innerBytes inner = .ok parts ∧ innerBytes inner' = .ok parts := by
  obtain ⟨front, body, hfront, hbody, rfl⟩ := toBytes_ok.1 hb
  obtain ⟨front', body', hfront', hbody', heq⟩ := toBytes_ok.1 hb'
  obtain ⟨hlt, parts, hparts, rfl⟩ := payloadBytes_aggregate_ok.1 hbody
  obtain ⟨hlt', parts', hparts', rfl⟩ := payloadBytes_aggregate_ok.1 hbody'
  have hheaders : front.length = front'.length := by
    rw [Header.length_bytes hfront, Header.length_bytes hfront']
  have hbehind := (List.append_inj heq hheaders).2
  rw [List.append_assoc, List.append_assoc] at hbehind
  obtain ⟨hsizes, hbehind⟩ :=
    List.append_inj hbehind (by rw [length_bytes32, length_bytes32])
  have hlen : parts.length = parts'.length := by
    rw [length_innerBytes hparts, length_innerBytes hparts',
      bytes32_ofNat_inj hlt hlt' hsizes]
  obtain ⟨rfl, _⟩ := List.append_inj hbehind hlen
  exact ⟨parts, hparts, hparts'⟩

/-- An aggregate is read back just if all that it holds can be read. -/
theorem ofBytesAs_aggregate_iff {header : Header} {inner : List Transaction}
    {cosignatures : List Cosignature} {b : List UInt8} (htype : header.type.shape = .aggregate)
    (hb : (aggregate header inner cosignatures).toBytes = .ok b) :
    (∃ tx, ofBytesAs .aggregate b = .ok tx) ↔ ∀ part ∈ inner, part.Readable := by
  rw [forall_readable]
  constructor
  · intro h
    obtain ⟨tx, htx⟩ := h
    obtain ⟨hshape, hcarried, hread⟩ := ofBytesAs_ok.1 htx
    cases tx with
    | single header' payload => exact absurd hshape payload.shape_ne_aggregate
    | aggregate header' inner' cosignatures' =>
        obtain ⟨_, _, _, _, hisPart⟩ := wellTyped_and_isCarried.1 hcarried
        obtain ⟨parts, hparts, hparts'⟩ := innerBytes_of_toBytes hb hread
        exact ⟨inner', hisPart, (innerBytes_alike hparts).1 hparts'⟩
  · intro h
    obtain ⟨inner', hisPart, halike⟩ := h
    obtain ⟨front, body, hfront, hbody, rfl⟩ := toBytes_ok.1 hb
    obtain ⟨hlt, parts, hparts, rfl⟩ := payloadBytes_aggregate_ok.1 hbody
    have hparts' := (innerBytes_alike hparts).2 halike
    have hsize : innerSize inner' = innerSize inner := by
      rw [← length_innerBytes hparts', length_innerBytes hparts]
    refine ⟨.aggregate header.normal.unreported inner'
      (cosignatures.map (Cosignature.on header.network)), ofBytesAs_ok.2 ⟨rfl, ?_, ?_⟩⟩
    · refine wellTyped_and_isCarried.2 ⟨htype,
        Header.unreported_isNormal header.normal_isNormal, rfl, ?_, hisPart⟩
      intro a ha
      simp only [accounts, List.map_map] at ha
      obtain ⟨s, _, rfl⟩ := List.mem_map.1 ha
      rfl
    · refine toBytes_ok.2 ⟨front, _, ?_, payloadBytes_aggregate_ok.2
        ⟨hsize ▸ hlt, parts, hparts', rfl⟩, ?_⟩
      · show header.normal.bytes _ = .ok front
        rw [Header.bytes_normal, size, hsize, List.length_map, ← hfront, size]
        rfl
      · rw [hsize, List.flatMap_map]
        rfl

/-- An aggregate that is new and has grown is read back just if all that it holds
can be read. If all parts bear types of what they are, it is read back as its normal
form, less what bytes do not carry. -/
theorem ofBytesAs_grown {start tx : Transaction} {b : List UInt8} (hnew : IsNew start)
    (hgrown : Grows start tx) (hb : tx.toBytes = .ok b) :
    ((∃ tx', ofBytesAs .aggregate b = .ok tx') ↔ ∀ part ∈ tx.inner, part.Readable) ∧
    ((∀ part ∈ tx.inner, part.type.shape = part.shape) →
      ofBytesAs .aggregate b = .ok tx.normal.carried) := by
  obtain ⟨type, network, deadline, inner, cosignatures, htype, _, hparts, rfl⟩ :=
    exists_of_grown hnew hgrown
  refine ⟨ofBytesAs_aggregate_iff htype hb, fun htrue => ?_⟩
  have htyped : (aggregate (.new type network deadline) inner cosignatures).WellTyped :=
    ⟨htype, fun part hpart =>
      ⟨htrue part hpart, htrue part hpart ▸ (hparts part hpart).type⟩⟩
  refine ofBytesAs_ok.2
    ⟨?_, normal_carried_isCarried htyped, toBytes_normal_carried htyped hb⟩
  rw [normal_aggregate]
  rfl

theorem ofBytesAs_grown_join : ∃ b, (bonded [join, join]).toBytes = .ok b ∧
    ofBytesAs .aggregate b = .ok (bonded [join, join]).normal.carried := by
  have htyped : (bonded [join, join]).WellTyped := ⟨rfl, by decide⟩
  obtain ⟨b, hb⟩ := toBytes_of_countsFit htyped ⟨by decide, by decide⟩ (by decide)
  obtain ⟨_, hread⟩ :=
    ofBytesAs_grown (bonded_isNew join_admissible) (bonded_grows join_admissible) hb
  exact ⟨b, hb, hread fun part hpart => (htyped.inner part hpart).1⟩

/-! ## Parts that say what they are not -/

/-- What is written alike has the same type and the same size. -/
theorem type_and_size_of_alike {tx tx' : Transaction} (h : WrittenAlike tx tx') :
    tx.type = tx'.type ∧ tx.size = tx'.size := by
  obtain ⟨x, hx, hx'⟩ := h
  obtain ⟨_, body, hsplit⟩ := toEmbeddedBytes_prefix hx
  obtain ⟨_, body', hsplit'⟩ := toEmbeddedBytes_prefix hx'
  refine ⟨?_, ?_⟩
  · have hbehind := List.append_cancel_left (hsplit.symm.trans hsplit')
    have hidentity := (List.append_inj hbehind
      (by rw [Header.length_identityBytes, Header.length_identityBytes])).1
    have hcode : bytes16 tx.type.code = bytes16 tx'.type.code :=
      (List.append_inj' hidentity (by rw [length_bytes16, length_bytes16])).2
    have htype := TransactionType.ofCode_ok.2 (bytes16_inj hcode)
    rw [TransactionType.ofCode_ok.2 rfl] at htype
    exact Except.ok.inj htype
  · have hlen := length_toEmbeddedBytes hx
    rw [length_toEmbeddedBytes hx'] at hlen
    have hsize := headerSize_le_size tx
    have hsize' := headerSize_le_size tx'
    simp only [Layout.embeddedReduction, Layout.headerSize, Layout.embeddedHeaderSize]
      at hlen hsize hsize'
    omega

/-- The join, which says that it prepares a drive. -/
def stray : Transaction :=
  join.withHeader { join.header with type := .prepareDrive }

theorem stray_not_readable : ¬ stray.Readable := by
  intro h
  obtain ⟨part, hpart, halike⟩ := h
  obtain ⟨htype, hsize⟩ := type_and_size_of_alike halike
  obtain ⟨header, payload, rfl⟩ := exists_single hpart.shape
  have hshape : payload.shape = .prepareDrive := by
    have hpart := hpart.type
    rw [← htype] at hpart
    exact hpart.symm
  cases payload with
  | prepareDrive terms => cases hsize
  | _ => cases hshape

theorem stray_ofBytesAs : IsNew (bonded [stray]) ∧ ∃ b, (bonded [stray]).toBytes = .ok b ∧
    ¬ ∃ tx, ofBytesAs .aggregate b = .ok tx := by
  have hbytes := bonded_join_toBytes { join.header with type := .prepareDrive }
  refine ⟨bonded_isNew ⟨by decide, Option.some_ne_none _⟩, _, hbytes, ?_⟩
  intro h
  exact stray_not_readable
    ((ofBytesAs_aggregate_iff rfl hbytes).1 h stray (List.mem_singleton.2 rfl))

end Transaction

end DriveChain
