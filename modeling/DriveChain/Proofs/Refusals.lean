import DriveChain.Proofs.ReaderFaults

/-!
# Which bytes are refused, and for what

What a reader of bytes can complain about has been found along the readers. Two things
remain to be said of the bytes as a whole, and both are about the size that they
announce. It is judged right after the type has been looked at, so bytes of a known type
are refused for their size exactly if it is another one than they have; no later reader
makes that complaint.

It follows that bytes which are read stop being read when some are cut off or added at
the end: what they announce stays, and is no longer what they are. Where too much is cut
off for the type to be there, that is found first.
-/

namespace DriveChain

open Reader

namespace Transaction

/-- The bytes that have to be there for the type to be looked at. -/
abbrev typeEnd : Nat :=
  Layout.typeOffset + 2

/-! ## The announced size -/

/-- Bytes of a known type that announce another size are refused for that. -/
theorem ofBytes_of_announced {b : List UInt8} {type : TransactionType} {announced : UInt32}
    (htype : declaredType b = .ok type) (hsize : bytes32 announced <+: b)
    (hne : announced.toNat ≠ b.length) :
    ofBytes b = .error (.sizeMismatch announced.toNat b.length) := by
  obtain ⟨rest, hrest⟩ := hsize
  have hword : word32 (Cursor.start b) = .ok announced ⟨0 + (bytes32 announced).length, rest⟩ :=
    word32_ok.2 ⟨hrest.symm, rfl⟩
  have hread : Header.readSize b.length (Cursor.start b) =
      .error (.sizeMismatch announced.toNat b.length)
        ⟨0 + (bytes32 announced).length, rest⟩ := by
    refine bind_error.2 (.inr ⟨announced, _, hword, ?_⟩)
    rw [if_neg hne]
    rfl
  have hheader : Header.read b.length (Cursor.start b) =
      .error (.sizeMismatch announced.toNat b.length)
        ⟨0 + (bytes32 announced).length, rest⟩ :=
    bind_error.2 (.inl hread)
  have hwhole : readAs type.shape b.length (Cursor.start b) =
      .error (.sizeMismatch announced.toNat b.length)
        ⟨0 + (bytes32 announced).length, rest⟩ :=
    bind_error.2 (.inl hheader)
  rw [ofBytes, htype]
  show run (readAs type.shape b.length) b = _
  rw [run, hwhole]

theorem ofBytes_sizeMismatch_iff {b : List UInt8} {expected actual : Nat} :
    ofBytes b = .error (.sizeMismatch expected actual) ↔
      (∃ type, declaredType b = .ok type) ∧ actual = b.length ∧ expected ≠ actual ∧
        ∃ announced : UInt32, bytes32 announced <+: b ∧ expected = announced.toNat := by
  refine ⟨fun h => ?_, fun h => ?_⟩
  · obtain hfault | ⟨announced, hsize, hne, heq⟩ := ofBytes_error h
    · cases hfault
    · cases heq
      refine ⟨?_, rfl, hne, announced, hsize, rfl⟩
      cases htype : declaredType b with
      | ok type => exact ⟨type, rfl⟩
      | error e =>
          have hfault := declaredType_error htype
          rw [ofBytes, htype] at h
          cases h
          cases hfault
  · obtain ⟨⟨type, htype⟩, rfl, hne, announced, hsize, rfl⟩ := h
    exact ofBytes_of_announced htype hsize hne

/-! ## Bytes cut off and added -/

/-- Bytes that are read announce as many as they are. -/
theorem announced_of_ofBytes {b : List UInt8} {tx : Transaction} (h : ofBytes b = .ok tx) :
    ∃ announced : UInt32, bytes32 announced <+: b ∧ announced.toNat = b.length := by
  have hb := (ofBytes_ok.1 h).2
  have hlen := length_toBytes hb
  obtain ⟨front, body, hfront, _, rfl⟩ := toBytes_ok.1 hb
  obtain ⟨hlt, hfront⟩ := Header.bytes_ok.1 hfront
  refine ⟨UInt32.ofNat tx.size, ?_, ?_⟩
  · rw [hfront]
    simp only [List.append_assoc]
    exact List.prefix_append _ _
  · rw [hlen, UInt32.toNat_ofNat_of_lt' hlt]

theorem declaredType_short {b : List UInt8} (h : b.length < typeEnd) :
    declaredType b = .error (.truncated 0 typeEnd b.length) :=
  if_pos h

/-- The type is that of all bytes that begin alike. -/
theorem declaredType_of_beginning {b b' : List UInt8} (h : b <+: b') (hlen : typeEnd ≤ b.length) :
    declaredType b' = declaredType b := by
  obtain ⟨rest, rfl⟩ := h
  have hlong : typeEnd ≤ (b ++ rest).length := by
    rw [List.length_append]
    omega
  have hslot : ((b ++ rest).drop Layout.typeOffset).take 2 =
      (b.drop Layout.typeOffset).take 2 := by
    have hoffset : Layout.typeOffset + 2 ≤ b.length := hlen
    rw [List.drop_append_of_le_length (by omega), List.take_append_of_le_length]
    rw [List.length_drop]
    omega
  rw [declaredType, declaredType, if_neg (Nat.not_lt.2 hlong), if_neg (Nat.not_lt.2 hlen),
    hslot]

/-- Bytes that are read have a type, and room for it. -/
theorem declaredType_of_ofBytes {b : List UInt8} {tx : Transaction} (h : ofBytes b = .ok tx) :
    declaredType b = .ok tx.type ∧ typeEnd ≤ b.length := by
  have htype := declaredType_of_toBytes (ofBytes_ok.1 h).2
  refine ⟨htype, ?_⟩
  rcases Nat.lt_or_ge b.length typeEnd with hshort | hroom
  · rw [declaredType_short hshort] at htype
    cases htype
  · exact hroom

/-- What bytes that are cut off from a transaction's are refused for. -/
def cutFault (b cut : List UInt8) : TransactionError :=
  if cut.length < typeEnd then .truncated 0 typeEnd cut.length
  else .sizeMismatch b.length cut.length

theorem ofBytes_cut {b cut : List UInt8} {tx : Transaction} (h : ofBytes b = .ok tx)
    (hcut : cut <+: b) (hne : cut ≠ b) : ofBytes cut = .error (cutFault b cut) := by
  unfold cutFault
  by_cases hshort : cut.length < typeEnd
  · rw [if_pos hshort, ofBytes, declaredType_short hshort]
  · rw [if_neg hshort]
    obtain ⟨announced, hsize, hlen⟩ := announced_of_ofBytes h
    have htype : declaredType cut = .ok tx.type := by
      rw [← declaredType_of_beginning hcut (Nat.le_of_not_lt hshort)]
      exact (declaredType_of_ofBytes h).1
    have hshorter : cut.length ≠ b.length := fun heq => hne (hcut.eq_of_length heq)
    have hfour : (bytes32 announced).length ≤ cut.length := by
      simp only [typeEnd, Layout.typeOffset] at hshort
      rw [length_bytes32]
      omega
    rw [← hlen]
    refine ofBytes_of_announced htype (List.prefix_of_prefix_length_le hsize hcut hfour) ?_
    rw [hlen]
    exact hshorter.symm

theorem ofBytes_added {b added : List UInt8} {tx : Transaction} (h : ofBytes b = .ok tx)
    (hne : added ≠ []) :
    ofBytes (b ++ added) = .error (.sizeMismatch b.length (b ++ added).length) := by
  obtain ⟨announced, hsize, hlen⟩ := announced_of_ofBytes h
  obtain ⟨htype, hroom⟩ := declaredType_of_ofBytes h
  have hb : b <+: b ++ added := List.prefix_append b added
  have hadded := List.length_pos_iff.2 hne
  rw [← hlen]
  refine ofBytes_of_announced ((declaredType_of_beginning hb hroom).trans htype) (hsize.trans hb) ?_
  rw [hlen, List.length_append]
  omega

/-- Bytes are refused for one of the faults that bytes can have or for the size of the
whole; for that just if they are of a known type and announce another size than they
have. Bytes that are read are refused for their size, or for want of a type, once some
are cut off or added at the end. -/
theorem refused_for_faults_or_size (b : List UInt8) :
    (∀ e, ofBytes b = .error e →
      ReadFault b.length e ∨ ∃ announced, e = .sizeMismatch announced b.length) ∧
    (∀ expected actual, ofBytes b = .error (.sizeMismatch expected actual) ↔
      (∃ type, declaredType b = .ok type) ∧ actual = b.length ∧ expected ≠ actual ∧
        ∃ announced : UInt32, bytes32 announced <+: b ∧ expected = announced.toNat) ∧
    ∀ tx, ofBytes b = .ok tx →
      (∀ cut, cut <+: b → cut ≠ b → ofBytes cut = .error (cutFault b cut)) ∧
      ∀ added, added ≠ [] →
        ofBytes (b ++ added) = .error (.sizeMismatch b.length (b ++ added).length) := by
  refine ⟨fun e h => ?_, fun expected actual => ofBytes_sizeMismatch_iff, fun tx h => ⟨?_, ?_⟩⟩
  · obtain hfault | ⟨announced, _, _, heq⟩ := ofBytes_error h
    · exact .inl hfault
    · exact .inr ⟨_, heq⟩
  · exact fun cut hcut hne => ofBytes_cut h hcut hne
  · exact fun added hne => ofBytes_added h hne

/-- A transaction that reports no failures. -/
def unfailing : Transaction :=
  .single (Header.new .endDriveVerification .mijinTest 1) (.endDriveVerification [])

theorem unfailing_ofBytes : ∃ b, ofBytes b = .ok unfailing ∧ b.length = 122 := by
  have hbytes : unfailing.toBytes = .ok _ :=
    toBytes_ok.2 ⟨_, _, Header.bytes_ok.2 ⟨by decide, rfl⟩, rfl, rfl⟩
  refine ⟨_, ofBytes_ok.2 ⟨wellTyped_and_isCarried.2 ⟨rfl, ?_, rfl, ?_, ?_⟩, hbytes⟩, rfl⟩
  · exact Header.new_isNormal _ _ _
  · exact fun a ha => (nomatch ha)
  · exact fun part hpart => (nomatch hpart)

theorem unfailing_cut_and_added : ∃ b, ofBytes b = .ok unfailing ∧
    ofBytes (b.take 121) = .error (.sizeMismatch 122 121) ∧
    ofBytes (b.take 105) = .error (.truncated 0 106 105) ∧
    ofBytes (b ++ [0]) = .error (.sizeMismatch 122 123) := by
  obtain ⟨b, hb, hlen⟩ := unfailing_ofBytes
  obtain ⟨hcut, hadded⟩ := (refused_for_faults_or_size b).2.2 unfailing hb
  have htake : ∀ n, n < 122 → (b.take n).length = n ∧ b.take n ≠ b := by
    intro n hn
    have hn' : (b.take n).length = n := List.length_take_of_le (by omega)
    refine ⟨hn', fun heq => ?_⟩
    rw [heq] at hn'
    omega
  have hfault : ∀ n, n < 122 → ofBytes (b.take n) = .error
      (if n < 106 then .truncated 0 106 n else .sizeMismatch 122 n) := by
    intro n hn
    obtain ⟨hn', hne⟩ := htake n hn
    rw [hcut _ (List.take_prefix n b) hne, cutFault, hn', hlen]
    rfl
  have hmore := hadded [0] (List.cons_ne_nil _ _)
  rw [List.length_append, hlen] at hmore
  exact ⟨b, hb, hfault 121 (by decide), hfault 105 (by decide), hmore⟩

end Transaction

end DriveChain
