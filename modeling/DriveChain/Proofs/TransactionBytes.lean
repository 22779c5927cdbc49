import DriveChain.Proofs.PayloadBytes

/-!
# Bytes and transactions

The byte form of a transaction is its header's bytes with its payload's behind
them, and it is as long as the transaction's size says, so that the last check
of the writer never fails. This holds for every transaction, however deeply
aggregates are nested in memory.

Reading is the other half. What stands inside an aggregate is read by windows:
each inner transaction announces its size, is read in a window of just that
size, and has to fill it. So the reader of inner transactions accepts the
embedded form, and the whole reader accepts the byte form, of the transactions
in the form that bytes carry. That one equivalence is the module's main result;
that reading undoes writing and that writing undoes reading are its two halves.
-/

namespace DriveChain

namespace Transaction

open Reader

/-! ## What is written, and how long it is -/

theorem headerSize_le_size (tx : Transaction) : Layout.headerSize ≤ tx.size := by
  cases tx with
  | single header payload =>
      rw [size]
      cases payload <;>
        simp only [Payload.size, Layout.prepareDrive, Layout.joinToDrive,
          Layout.driveFileSystem, Layout.filesDeposit, Layout.endDrive,
          Layout.driveFilesReward, Layout.startDriveVerification,
          Layout.endDriveVerification, Layout.startFileDownload, Layout.endFileDownload] <;>
        omega
  | aggregate header inner cosignatures =>
      rw [size, Layout.aggregate]
      omega

theorem innerBytes_nil : innerBytes [] = .ok [] := rfl

/-- The step of the writer, by computation: deriving its equation would try to
decide whether a size fits its slot. -/
theorem innerBytes_step (tx : Transaction) (rest : List Transaction) :
    innerBytes (tx :: rest) =
      match tx.header.embeddedBytes (tx.size - Layout.embeddedReduction) with
      | .error e => .error e
      | .ok front =>
        match tx.payloadBytes with
        | .error e => .error e
        | .ok body =>
          match innerBytes rest with
          | .error e => .error e
          | .ok back => .ok (front ++ body ++ back) := by
  rfl

mutual

/-- The bytes behind the header are as many as the size leaves for them. -/
theorem length_payloadBytes {tx : Transaction} {b : List UInt8}
    (hb : tx.payloadBytes = .ok b) : Layout.headerSize + b.length = tx.size := by
  match tx with
  | .single header payload =>
      rw [payloadBytes] at hb
      rw [size]
      exact Payload.length_bytes hb
  | .aggregate header inner cosignatures =>
      rw [payloadBytes] at hb
      split at hb
      · split at hb
        · cases hb
        · next body hbody =>
            cases hb
            have hlen := length_innerBytes hbody
            rw [List.length_append, List.length_append, length_bytes32, hlen,
              length_flatMap_of_width Cosignature.length_bytes, size, Layout.aggregate]
            omega
      · cases hb

theorem length_innerBytes {txs : List Transaction} {b : List UInt8}
    (hb : innerBytes txs = .ok b) : b.length = innerSize txs := by
  match txs with
  | [] =>
      rw [innerBytes_nil] at hb
      cases hb
      rw [innerSize]
      rfl
  | tx :: rest =>
      rw [innerBytes_step] at hb
      split at hb
      · cases hb
      · next front hfront =>
          split at hb
          · cases hb
          · next body hbody =>
              split at hb
              · cases hb
              · next back hback =>
                  cases hb
                  have hheader := Header.length_embeddedBytes hfront
                  have hpayload := length_payloadBytes hbody
                  have hrest := length_innerBytes hback
                  rw [List.length_append, List.length_append, hheader, hrest, innerSize]
                  simp only [Layout.embeddedReduction, Layout.headerSize,
                    Layout.embeddedHeaderSize] at hpayload ⊢
                  omega

end

theorem finish_ok {announced : Nat} {b b' : List UInt8} (h : b.length = announced) :
    finish announced b = .ok b' ↔ b' = b := by
  rw [finish, if_pos h, Except.ok.injEq, eq_comm]

theorem toBytes_ok {tx : Transaction} {b : List UInt8} :
    tx.toBytes = .ok b ↔ ∃ front body, tx.header.bytes tx.size = .ok front ∧
      tx.payloadBytes = .ok body ∧ b = front ++ body := by
  unfold toBytes
  cases hfront : tx.header.bytes tx.size with
  | error e => simp
  | ok front =>
      cases hbody : tx.payloadBytes with
      | error e => simp
      | ok body =>
          have hlen : (front ++ body).length = tx.size := by
            rw [List.length_append, Header.length_bytes hfront, length_payloadBytes hbody]
          simp [finish_ok hlen]

theorem toEmbeddedBytes_ok {tx : Transaction} {b : List UInt8} :
    tx.toEmbeddedBytes = .ok b ↔ ∃ front body,
      tx.header.embeddedBytes (tx.size - Layout.embeddedReduction) = .ok front ∧
        tx.payloadBytes = .ok body ∧ b = front ++ body := by
  unfold toEmbeddedBytes
  simp only []
  cases hfront : tx.header.embeddedBytes (tx.size - Layout.embeddedReduction) with
  | error e => simp
  | ok front =>
      cases hbody : tx.payloadBytes with
      | error e => simp
      | ok body =>
          have hlen : (front ++ body).length = tx.size - Layout.embeddedReduction := by
            have hpayload := length_payloadBytes hbody
            rw [List.length_append, Header.length_embeddedBytes hfront]
            simp only [Layout.embeddedReduction, Layout.headerSize,
              Layout.embeddedHeaderSize] at hpayload ⊢
            omega
          simp [finish_ok hlen]

theorem length_toBytes {tx : Transaction} {b : List UInt8} (hb : tx.toBytes = .ok b) :
    b.length = tx.size := by
  obtain ⟨front, body, hfront, hbody, rfl⟩ := toBytes_ok.1 hb
  rw [List.length_append, Header.length_bytes hfront, length_payloadBytes hbody]

/-- The bytes of inner transactions are their embedded forms, one after the other. -/
theorem innerBytes_cons {tx : Transaction} {rest : List Transaction} {b : List UInt8} :
    innerBytes (tx :: rest) = .ok b ↔
      ∃ x y, tx.toEmbeddedBytes = .ok x ∧ innerBytes rest = .ok y ∧ b = x ++ y := by
  simp only [toEmbeddedBytes_ok]
  rw [innerBytes_step]
  cases tx.header.embeddedBytes (tx.size - Layout.embeddedReduction) with
  | error e => simp
  | ok front =>
      cases tx.payloadBytes with
      | error e => simp
      | ok body =>
          cases innerBytes rest with
          | error e => simp
          | ok back => simp [eq_comm]

theorem payloadBytes_aggregate_ok {header : Header} {inner : List Transaction}
    {cosignatures : List Cosignature} {b : List UInt8} :
    (aggregate header inner cosignatures).payloadBytes = .ok b ↔
      innerSize inner < UInt32.size ∧ ∃ body, innerBytes inner = .ok body ∧
        b = bytes32 (UInt32.ofNat (innerSize inner)) ++ body ++
          cosignatures.flatMap Cosignature.bytes := by
  rw [payloadBytes]
  by_cases hlt : innerSize inner < UInt32.size
  · rw [if_pos hlt]
    cases innerBytes inner with
    | error e => simp
    | ok body => simp [hlt, eq_comm]
  · rw [if_neg hlt]
    simp [hlt]

/-! ## Inner transactions -/

/-- Transactions that are read from within an aggregate. -/
structure IsPart (tx : Transaction) : Prop where
  type : tx.type.shape = tx.shape
  shape : tx.shape ≠ .aggregate
  header : tx.header.IsNormal
  embedded : tx.header.IsEmbedded
  accounts : ∀ a ∈ tx.accounts, a.on tx.header.network = a

theorem length_toEmbeddedBytes {tx : Transaction} {b : List UInt8}
    (hb : tx.toEmbeddedBytes = .ok b) :
    b.length = tx.size - Layout.embeddedReduction := by
  obtain ⟨front, body, hfront, hbody, rfl⟩ := toEmbeddedBytes_ok.1 hb
  have hpayload := length_payloadBytes hbody
  rw [List.length_append, Header.length_embeddedBytes hfront]
  simp only [Layout.embeddedReduction, Layout.headerSize, Layout.embeddedHeaderSize]
    at hpayload ⊢
  omega

theorem toEmbeddedBytes_ne_nil {tx : Transaction} {b : List UInt8}
    (hb : tx.toEmbeddedBytes = .ok b) : b ≠ [] := by
  intro hnil
  have hlen := length_toEmbeddedBytes hb
  have hsize := headerSize_le_size tx
  rw [hnil] at hlen
  simp only [List.length_nil, Layout.embeddedReduction, Layout.headerSize,
    Layout.embeddedHeaderSize] at hlen hsize
  omega

/-- The window that an inner transaction is read in holds its embedded form, and
the form begins with the size of the window. -/
theorem readInner_accepts :
    Accepts readInner (fun tx b => tx.IsPart ∧ tx.toEmbeddedBytes = .ok b) := by
  intro c c' tx
  simp only [readInner, bind_ok, peek32_ok, split_ok, on_ok, expectEnd_ok, pure_ok,
    Header.readEmbedded_ok]
  refine ⟨fun h => ?_, fun h => ?_⟩
  · obtain ⟨size, _, ⟨rfl, _, _⟩, _, c₁, ⟨front, hlen, rfl, hpass⟩, rfl, _, header, c₂,
      ⟨hnormal, hembedded, b, hb, hheader⟩, payload, c₃, hread, _, _, ⟨rfl, hend⟩, rfl,
      rfl⟩ := h
    obtain ⟨hshape, hon, body, hbody, hpayload⟩ := Payload.read_sound hread
    have hfront : front = b ++ body :=
      Cursor.rest_of_passes (Cursor.passes_append.2 ⟨_, hheader, hpayload⟩) hend
    have hsize : size.toNat = payload.size - Layout.embeddedReduction := by
      have hpart := Payload.length_bytes hbody
      rw [← hlen, hfront, List.length_append, Header.length_embeddedBytes hb]
      simp only [Layout.embeddedReduction, Layout.headerSize, Layout.embeddedHeaderSize]
        at hpart ⊢
      omega
    refine ⟨front, ⟨⟨?_, ?_, hnormal, hembedded, ?_⟩, ?_⟩, hpass⟩
    · exact hshape.symm
    · exact payload.shape_ne_aggregate
    · exact Payload.accounts_of_on_eq_self hon
    · rw [hsize] at hb
      refine toEmbeddedBytes_ok.2 ⟨b, body, ?_, ?_, hfront⟩
      · rw [Transaction.size]
        exact hb
      · rw [payloadBytes]
        exact hbody
  · obtain ⟨b, ⟨hpart, hb⟩, hpass⟩ := h
    obtain ⟨header, payload, rfl⟩ := exists_single hpart.shape
    have hlen := length_toEmbeddedBytes hb
    obtain ⟨front, body, hfront, hbody, rfl⟩ := toEmbeddedBytes_ok.1 hb
    obtain ⟨hlt, hsplit⟩ := Header.embeddedBytes_ok.1 hfront
    have hannounced := UInt32.toNat_ofNat_of_lt' hlt
    have hpeek : ∃ c₁, c.Passes (bytes32 (UInt32.ofNat
        ((single header payload).size - Layout.embeddedReduction))) c₁ := by
      rw [hsplit, List.append_assoc] at hpass
      obtain ⟨c₁, h₁, _⟩ := Cursor.passes_append.1 hpass
      exact ⟨c₁, h₁⟩
    obtain ⟨c₂, hheader, hpayload⟩ :=
      Cursor.passes_append.1 (Cursor.passes_rest c.position (front ++ body))
    rw [payloadBytes] at hbody
    have hread := Payload.read_complete header.network hbody hpayload rfl
    have hon : payload.on header.network = payload := Payload.on_eq_self hpart.accounts
    have hshape : header.type.shape = payload.shape := hpart.type
    rw [hon, ← hshape] at hread
    rw [← hannounced] at hfront
    exact ⟨_, c, ⟨rfl, hpeek⟩, _, c', ⟨_, hlen.trans hannounced.symm, rfl, hpass⟩, rfl,
      _, header, c₂, ⟨hpart.header, hpart.embedded, front, hfront, hheader⟩,
      payload, _, hread, (), _, ⟨rfl, rfl⟩, rfl, rfl⟩

theorem many_readInner_ok {c c' : Cursor} {inner : List Transaction} :
    many readInner c = .ok inner c' ↔ c'.rest = [] ∧ (∀ tx ∈ inner, tx.IsPart) ∧
      ∃ b, innerBytes inner = .ok b ∧ c.Passes b c' := by
  rw [many_accepts readInner_accepts fun tx b h => toEmbeddedBytes_ne_nil h.2]
  have heach : ∀ b, Form.Each (fun tx b => tx.IsPart ∧ tx.toEmbeddedBytes = .ok b) inner b ↔
      (∀ tx ∈ inner, tx.IsPart) ∧ innerBytes inner = .ok b :=
    fun b => Form.each_of_write innerBytes_nil (fun _ _ _ => innerBytes_cons)
  simp only [heach, and_assoc, exists_and_left]

theorem readCosignatures_ok {network : Network} {c c' : Cursor} {cs : List Cosignature} :
    readCosignatures network c = .ok cs c' ↔ c'.rest = [] ∧
      (∀ s ∈ cs, s.on network = s) ∧ c.Passes (cs.flatMap Cosignature.bytes) c' := by
  have hmany : ∀ c, many (Cosignature.read network) c = .ok cs c' ↔ c'.rest = [] ∧
      (∀ s ∈ cs, s.on network = s) ∧ c.Passes (cs.flatMap Cosignature.bytes) c' := by
    intro c
    rw [many_accepts (Cosignature.read_accepts network)]
    · simp only [Form.each_written, and_assoc, exists_and_left,
        exists_eq_left]
    · intro s b h hnil
      have hlen := s.length_bytes
      rw [← h.2, hnil] at hlen
      cases hlen
  simp only [readCosignatures, bind_ok, get_ok]
  refine ⟨fun h => ?_, fun h => ?_⟩
  · obtain ⟨_, _, ⟨rfl, rfl⟩, hread⟩ := h
    split at hread
    · exact (throw_ok.1 hread).elim
    · exact (hmany c).1 hread
  · refine ⟨c, c, ⟨rfl, rfl⟩, ?_⟩
    have hlen := congrArg List.length h.2.2.1
    rw [h.1, List.append_nil, length_flatMap_of_width Cosignature.length_bytes] at hlen
    rw [if_neg]
    · exact (hmany c).2 h
    · rw [Cursor.remaining, hlen, Nat.mul_mod_right]
      exact fun hne => hne rfl

/-! ## Whole transactions -/

theorem readBody_of_ne {header : Header} {shape : Shape} (h : shape ≠ .aggregate) :
    readBody header shape = (do
      let payload ← Payload.read header.network shape
      return .single header payload) := by
  cases shape with
  | aggregate => exact absurd rfl h
  | _ => rfl

/-- What follows the header of an aggregate. -/
theorem readBody_aggregate_ok {header : Header} {tx : Transaction} {c c' : Cursor} :
    readBody header .aggregate c = .ok tx c' ↔ c'.rest = [] ∧
      ∃ inner cosignatures b, tx = .aggregate header inner cosignatures ∧
        (∀ part ∈ inner, part.IsPart) ∧ (∀ s ∈ cosignatures, s.on header.network = s) ∧
        tx.payloadBytes = .ok b ∧ c.Passes b c' := by
  simp only [readBody, bind_ok, word32_ok, split_ok, on_ok, many_readInner_ok,
    readCosignatures_ok, pure_ok]
  refine ⟨fun h => ?_, fun h => ?_⟩
  · obtain ⟨size, c₁, hsize, _, c₂, ⟨front, hlen, rfl, hfront⟩, inner, _, ⟨rfl, c₃, hend₃,
      hparts, body, hbody, hwindow⟩, cosignatures, c₄, ⟨hend, hcs, hpass⟩, rfl, rfl⟩ := h
    have heq : front = body := Cursor.rest_of_passes hwindow hend₃
    have hinner : innerSize inner = size.toNat := by
      rw [← length_innerBytes hbody, ← heq, hlen]
    refine ⟨hend, inner, cosignatures, _, rfl, hparts, hcs,
      payloadBytes_aggregate_ok.2 ⟨?_, body, hbody, rfl⟩, ?_⟩
    · rw [hinner]
      exact size.toNat_lt
    · rw [hinner, UInt32.ofNat_toNat, ← heq]
      simp only [Cursor.passes_append]
      exact ⟨c₂, ⟨c₁, hsize, hfront⟩, hpass⟩
  · obtain ⟨hend, inner, cosignatures, b, rfl, hparts, hcs, hb, hpass⟩ := h
    obtain ⟨hlt, body, hbody, rfl⟩ := payloadBytes_aggregate_ok.1 hb
    simp only [Cursor.passes_append] at hpass
    obtain ⟨c₂, ⟨c₁, hsize, hfront⟩, hpass⟩ := hpass
    have hlen : body.length = (UInt32.ofNat (innerSize inner)).toNat := by
      rw [length_innerBytes hbody, UInt32.toNat_ofNat_of_lt' hlt]
    exact ⟨_, c₁, hsize, _, c₂, ⟨body, hlen, rfl, hfront⟩, inner, c₂, ⟨rfl, _, rfl,
      hparts, body, hbody, Cursor.passes_rest c₁.position body⟩, cosignatures, c',
      ⟨hend, hcs, hpass⟩, rfl, rfl⟩

/-- What follows a header, read to the end of the bytes. -/
theorem readBody_ok {header : Header} {shape : Shape} {tx : Transaction} {c c' : Cursor}
    (hend : c'.rest = []) :
    readBody header shape c = .ok tx c' ↔ tx.header = header ∧ tx.shape = shape ∧
      (∀ a ∈ tx.accounts, a.on header.network = a) ∧ (∀ part ∈ tx.inner, part.IsPart) ∧
      ∃ b, tx.payloadBytes = .ok b ∧ c.Passes b c' := by
  by_cases hshape : shape = .aggregate
  · subst hshape
    rw [readBody_aggregate_ok]
    refine ⟨fun h => ?_, fun h => ?_⟩
    · obtain ⟨_, inner, cosignatures, b, rfl, hparts, hcs, hb, hpass⟩ := h
      refine ⟨rfl, rfl, List.forall_mem_map.2 fun s hs => ?_, hparts, b, hb, hpass⟩
      exact congrArg Cosignature.signer (hcs s hs)
    · obtain ⟨rfl, hshape, haccounts, hparts, b, hb, hpass⟩ := h
      cases tx with
      | single header payload => exact absurd hshape payload.shape_ne_aggregate
      | aggregate header inner cosignatures =>
          refine ⟨hend, inner, cosignatures, b, rfl, hparts, fun s hs => ?_, hb, hpass⟩
          exact Cosignature.on_eq_self (List.forall_mem_map.1 haccounts s hs)
  · rw [readBody_of_ne hshape]
    simp only [bind_ok, pure_ok]
    refine ⟨fun h => ?_, fun h => ?_⟩
    · obtain ⟨payload, c₁, hread, rfl, rfl⟩ := h
      obtain ⟨hshape', hon, b, hb, hpass⟩ := Payload.read_sound hread
      refine ⟨rfl, hshape', Payload.accounts_of_on_eq_self hon, fun part hpart => ?_, b, ?_,
        hpass⟩
      · cases hpart
      · rw [payloadBytes]
        exact hb
    · obtain ⟨rfl, hshape', haccounts, _, b, hb, hpass⟩ := h
      cases tx with
      | aggregate header inner cosignatures => exact absurd hshape'.symm hshape
      | single header payload =>
          have hon : payload.on header.network = payload := Payload.on_eq_self haccounts
          rw [payloadBytes] at hb
          have hread := Payload.read_complete header.network hb hpass hend
          rw [hon] at hread
          rw [← hshape']
          exact ⟨payload, c', hread, rfl, rfl⟩

/-- A transaction in the form that bytes carry, taken apart as it is read. -/
theorem wellTyped_and_isCarried {tx : Transaction} :
    tx.WellTyped ∧ tx.IsCarried ↔ tx.type.shape = tx.shape ∧ tx.header.IsNormal ∧
      tx.header.info = none ∧ (∀ a ∈ tx.accounts, a.on tx.header.network = a) ∧
      ∀ part ∈ tx.inner, part.IsPart := by
  refine ⟨fun h => ?_, fun h => ?_⟩
  · obtain ⟨⟨htype, htyped⟩, ⟨hheader, haccounts, hinner⟩, hinfo, hembedded⟩ := h
    refine ⟨htype, hheader, hinfo, haccounts, fun part hpart => ?_⟩
    obtain ⟨htype', hshape⟩ := htyped part hpart
    obtain ⟨hnormal, haccounts'⟩ := hinner part hpart
    exact ⟨htype', hshape, hnormal, hembedded part hpart, haccounts'⟩
  · obtain ⟨htype, hheader, hinfo, haccounts, hparts⟩ := h
    refine ⟨⟨htype, fun part hpart => ?_⟩, ⟨hheader, haccounts, fun part hpart => ?_⟩, hinfo,
      fun part hpart => (hparts part hpart).embedded⟩
    · exact ⟨(hparts part hpart).type, (hparts part hpart).shape⟩
    · exact ⟨(hparts part hpart).header, (hparts part hpart).accounts⟩

/-- Bytes are read as a transaction of a shape just if they are the bytes of one
in the form that bytes carry. -/
theorem ofBytesAs_ok {shape : Shape} {b : List UInt8} {tx : Transaction} :
    ofBytesAs shape b = .ok tx ↔
      tx.shape = shape ∧ (tx.WellTyped ∧ tx.IsCarried) ∧ tx.toBytes = .ok b := by
  rw [wellTyped_and_isCarried, ofBytesAs, run_ok]
  simp only [readAs, bind_ok, Header.read_ok]
  refine ⟨fun h => ?_, fun h => ?_⟩
  · obtain ⟨c, header, c₁, ⟨hnormal, hinfo, front, hfront, hpass⟩, hrest⟩ := h
    cases hcheck : shape.check header.type with
    | error e =>
        rw [hcheck] at hrest
        exact (throw_ok.1 hrest).elim
    | ok u =>
        rw [hcheck] at hrest
        simp only [bind_ok, expectEnd_ok, pure_ok] at hrest
        obtain ⟨tx', c₂, hread, _, _, ⟨rfl, hend⟩, rfl, rfl⟩ := hrest
        obtain ⟨rfl, hshape, haccounts, hparts, body, hbody, hpass'⟩ :=
          (readBody_ok hend).1 hread
        have hb : b = front ++ body :=
          Cursor.rest_of_passes (Cursor.passes_append.2 ⟨c₁, hpass, hpass'⟩) hend
        have hsize : b.length = tx'.size := by
          rw [hb, List.length_append, Header.length_bytes hfront, length_payloadBytes hbody]
        rw [hsize] at hfront
        refine ⟨hshape, ⟨?_, hnormal, hinfo, haccounts, hparts⟩, ?_⟩
        · rw [hshape]
          exact Shape.check_ok.1 hcheck
        · exact toBytes_ok.2 ⟨front, body, hfront, hbody, hb⟩
  · obtain ⟨rfl, ⟨htype, hnormal, hinfo, haccounts, hparts⟩, hb⟩ := h
    have hsize := length_toBytes hb
    obtain ⟨front, body, hfront, hbody, rfl⟩ := toBytes_ok.1 hb
    obtain ⟨c₁, hheader, hpayload⟩ :=
      Cursor.passes_append.1 (Cursor.passes_rest 0 (front ++ body))
    rw [← hsize] at hfront
    refine ⟨⟨0 + (front ++ body).length, []⟩, tx.header, c₁,
      ⟨hnormal, hinfo, front, hfront, hheader⟩, ?_⟩
    have hread := (readBody_ok rfl).2 ⟨rfl, rfl, haccounts, hparts, body, hbody, hpayload⟩
    have hcheck : tx.shape.check tx.header.type = .ok () := Shape.check_ok.2 htype
    rw [hcheck]
    simp only [bind_ok, expectEnd_ok, pure_ok]
    exact ⟨tx, _, hread, (), _, ⟨rfl, rfl⟩, rfl, rfl⟩

/-! ## The declared type -/

/-- The type stands behind the size, the signature, the signer's key and the
packed version. -/
theorem declaredType_of_header {header : Header} {size : Nat} {front : List UInt8}
    (hfront : header.bytes size = .ok front) (body : List UInt8) :
    declaredType (front ++ body) = .ok header.type := by
  have hlen := Header.length_bytes hfront
  obtain ⟨_, rfl⟩ := Header.bytes_ok.1 hfront
  obtain ⟨before, behind, hbytes, hoffset⟩ : ∃ before behind : List UInt8,
      bytes32 (UInt32.ofNat size) ++ header.signatureOctets.bytes ++ header.identityBytes ++
          bytes64 header.maxFee ++ bytes64 header.deadline ++ body =
        before ++ (bytes16 header.type.code ++ behind) ∧ before.length = Layout.typeOffset := by
    refine ⟨bytes32 (UInt32.ofNat size) ++ header.signatureOctets.bytes ++
      header.signerKey.bytes ++ bytes32 header.packedVersion,
      bytes64 header.maxFee ++ bytes64 header.deadline ++ body, ?_, ?_⟩
    · simp only [Header.identityBytes, List.append_assoc]
    · simp only [List.length_append, length_bytes32,
        header.signatureOctets.length_bytes, header.signerKey.length_bytes]
      rfl
  unfold declaredType
  rw [if_neg (by
      rw [List.length_append, hlen]
      simp only [Layout.headerSize, Layout.typeOffset]
      omega),
    hbytes, List.drop_left' hoffset, List.take_left' (length_bytes16 _), value_bytes16]
  exact TransactionType.ofCode_ok.2 rfl

theorem declaredType_of_toBytes {tx : Transaction} {b : List UInt8}
    (hb : tx.toBytes = .ok b) : declaredType b = .ok tx.type := by
  obtain ⟨front, body, hfront, _, rfl⟩ := toBytes_ok.1 hb
  exact declaredType_of_header hfront body

theorem ofBytes_ok {b : List UInt8} {tx : Transaction} :
    ofBytes b = .ok tx ↔ (tx.WellTyped ∧ tx.IsCarried) ∧ tx.toBytes = .ok b := by
  unfold ofBytes
  refine ⟨fun h => ?_, fun h => ?_⟩
  · split at h
    · cases h
    · exact (ofBytesAs_ok.1 h).2
  · rw [declaredType_of_toBytes h.2]
    exact ofBytesAs_ok.2 ⟨h.1.1.type.symm, h⟩

end Transaction

end DriveChain
