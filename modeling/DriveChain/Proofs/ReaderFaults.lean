import DriveChain.Proofs.TransactionBytes

/-!
# What a reader of bytes complains about

A reader that fails does so for one of a few reasons, and says where. All of them
are about the bytes: too few are left, some are left over, or those that are there
stand for nothing. That is found along the definitions like what readers accept: a
primitive reader fails only for want of bytes, and sequences and loops fail as their
parts do. The places are within the bytes as a whole, also in a window, because the
cursor of a window counts on from where the window begins.

Sizes need a closer look. An announced size is compared with the bytes there are,
but an inner transaction is read in a window cut to the size it announces, so only
the size of the whole can be wrong.
-/

namespace DriveChain

variable {α β : Type}

/-- What can be wrong with bytes of the given number, apart from the size that they
announce for the whole. -/
inductive ReadFault (total : Nat) : TransactionError → Prop
  | truncated {offset needed available : Nat} (short : available < needed)
      (inside : offset + available ≤ total) :
      ReadFault total (.truncated offset needed available)
  | trailing {offset count : Nat} (some : 0 < count) (inside : offset + count ≤ total) :
      ReadFault total (.trailing offset count)
  | unsupportedType (code : UInt16) : ReadFault total (.unsupportedType code)
  | network (byte : UInt8) : ReadFault total (.network (.unknownByte byte))
  | malformed {field : String} (fault : FieldFault)
      (known : field ∈ ["verificationFailures", "cosignatures", "transactions"]) :
      ReadFault total (.malformed field fault)

/-- The bytes that are left end within the given number of bytes. -/
def Cursor.Within (c : Cursor) (total : Nat) : Prop :=
  c.position + c.remaining ≤ total

theorem Cursor.Passes.within {c c' : Cursor} {bytes : List UInt8} {total : Nat}
    (h : c.Passes bytes c') (hc : c.Within total) : c'.Within total := by
  have hlen := h.remaining_eq
  have hpos := h.2
  unfold Within at hc ⊢
  omega

theorem Cursor.lacks_fault {c : Cursor} {needed total : Nat} (hc : c.Within total)
    (h : c.remaining < needed) : ReadFault total (c.lacks needed) :=
  .truncated h hc

/-! ## Codes -/

theorem TransactionType.ofCode_error {code : UInt16} {e : TransactionError}
    (h : ofCode code = .error e) : e = .unsupportedType code := by
  unfold ofCode at h
  split at h <;> cases h
  rfl

theorem Network.ofPacked_error {packed : UInt32} {e : NetworkError}
    (h : ofPacked packed = .error e) : ∃ byte, e = .unknownByte byte := by
  unfold ofPacked ofByte at h
  split at h <;> cases h
  exact ⟨_, rfl⟩

namespace Reader

/-- A reader that stays within the bytes, and fails only with what can be wrong with
them. -/
structure FaultsWithin (total : Nat) (reader : Reader α) : Prop where
  stays : ∀ {c a c'}, c.Within total → reader c = .ok a c' → c'.Within total
  fault : ∀ {c e c'}, c.Within total → reader c = .error e c' → ReadFault total e

variable {total : Nat}

/-! ## Steps -/

theorem bind_error {reader : Reader α} {next : α → Reader β} {c c'' : Cursor}
    {e : TransactionError} :
    (reader >>= next) c = .error e c'' ↔
      reader c = .error e c'' ∨ ∃ a c', reader c = .ok a c' ∧ next a c' = .error e c'' := by
  simp only [bind, EStateM.bind]
  cases reader c with
  | ok a c' =>
      refine ⟨fun h => .inr ⟨a, c', rfl, h⟩, fun h => ?_⟩
      rcases h with h | ⟨_, _, heq, h⟩
      · cases h
      · cases heq
        exact h
  | error e' c' => simp

theorem faults_bind {reader : Reader α} {next : α → Reader β}
    (h : reader.FaultsWithin total) (hnext : ∀ a, (next a).FaultsWithin total) :
    (reader >>= next).FaultsWithin total := by
  refine ⟨fun hc hread => ?_, fun hc hread => ?_⟩
  · obtain ⟨a, c', hfirst, hrest⟩ := bind_ok.1 hread
    exact (hnext a).stays (h.stays hc hfirst) hrest
  · rcases bind_error.1 hread with hfirst | ⟨a, c', hfirst, hrest⟩
    · exact h.fault hc hfirst
    · exact (hnext a).fault (h.stays hc hfirst) hrest

theorem faults_pure (a : α) : (pure a : Reader α).FaultsWithin total := by
  refine ⟨fun hc hread => ?_, fun _ hread => nomatch hread⟩
  obtain ⟨_, rfl⟩ := pure_ok.1 hread
  exact hc

theorem faults_throw {e : TransactionError} (h : ReadFault total e) :
    (throw e : Reader α).FaultsWithin total := by
  refine ⟨fun _ hread => (throw_ok.1 hread).elim, fun _ hread => ?_⟩
  cases hread
  exact h

theorem faults_get : (get : Reader Cursor).FaultsWithin total := by
  refine ⟨fun hc hread => ?_, fun _ hread => nomatch hread⟩
  obtain ⟨_, rfl⟩ := get_ok.1 hread
  exact hc

theorem faults_octets (n : Nat) : (octets n).FaultsWithin total := by
  refine ⟨fun hc hread => (octets_ok.1 hread).within hc, fun {c e c'} hc hread => ?_⟩
  unfold octets at hread
  split at hread
  · cases hread
  · next hlen =>
      cases hread
      rw [List.length_take] at hlen
      refine Cursor.lacks_fault hc ?_
      unfold Cursor.remaining
      omega

theorem faults_number (width : Nat) : (number width).FaultsWithin total :=
  faults_bind (faults_octets width) fun _ => faults_pure _

theorem faults_word8 : word8.FaultsWithin total :=
  faults_bind (faults_number 1) fun _ => faults_pure _

theorem faults_word16 : word16.FaultsWithin total :=
  faults_bind (faults_number 2) fun _ => faults_pure _

theorem faults_word32 : word32.FaultsWithin total :=
  faults_bind (faults_number 4) fun _ => faults_pure _

theorem faults_word64 : word64.FaultsWithin total :=
  faults_bind faults_word32 fun _ => faults_bind faults_word32 fun _ => faults_pure _

theorem faults_peek32 : peek32.FaultsWithin total := by
  refine ⟨fun hc hread => ?_, fun {c e c'} hc hread => ?_⟩
  · obtain ⟨rfl, _⟩ := peek32_ok.1 hread
    exact hc
  · unfold peek32 at hread
    split at hread
    · cases hread
    · next hword =>
        cases hread
        exact faults_word32.fault hc hword

theorem faults_expectEnd : expectEnd.FaultsWithin total := by
  refine ⟨fun hc hread => ?_, fun {c e c'} hc hread => ?_⟩
  · obtain ⟨rfl, _⟩ := expectEnd_ok.1 hread
    exact hc
  · unfold expectEnd at hread
    split at hread
    · cases hread
    · next hempty =>
        cases hread
        refine .trailing ?_ hc
        unfold Cursor.remaining
        rw [List.length_pos_iff]
        exact fun hnil => hempty (List.isEmpty_iff.2 hnil)

theorem faults_on {inner : Cursor} {reader : Reader α} (hinner : inner.Within total)
    (h : reader.FaultsWithin total) : (on inner reader).FaultsWithin total := by
  refine ⟨fun hc hread => ?_, fun {c e c'} _ hread => ?_⟩
  · obtain ⟨rfl, _⟩ := on_ok.1 hread
    exact hc
  · unfold on at hread
    split at hread
    · cases hread
    · next hfail =>
        cases hread
        exact h.fault hinner hfail

theorem split_error {n : Nat} {c c' : Cursor} {e : TransactionError}
    (h : split n c = .error e c') : e = c.lacks n ∧ c.remaining < n := by
  unfold split at h
  simp only [] at h
  split at h
  · cases h
  · next hlen =>
      cases h
      rw [List.length_take] at hlen
      refine ⟨rfl, ?_⟩
      unfold Cursor.remaining
      omega

/-- A window counts on from where it begins, and ends no later than the whole. -/
theorem within_of_split {n : Nat} {c c' window : Cursor} (hc : c.Within total)
    (h : split n c = .ok window c') : window.Within total := by
  obtain ⟨front, _, rfl, hrest, _⟩ := split_ok.1 h
  have hlen := congrArg List.length hrest
  rw [List.length_append] at hlen
  unfold Cursor.Within Cursor.remaining at hc ⊢
  simp only []
  omega

theorem faults_split {n : Nat} {next : Cursor → Reader β}
    (hnext : ∀ window, window.Within total → (next window).FaultsWithin total) :
    (split n >>= next).FaultsWithin total := by
  refine ⟨fun {c b c''} hc hread => ?_, fun {c e c''} hc hread => ?_⟩
  · obtain ⟨window, c', hsplit, hrest⟩ := bind_ok.1 hread
    obtain ⟨_, _, _, hpass⟩ := split_ok.1 hsplit
    exact (hnext window (within_of_split hc hsplit)).stays (hpass.within hc) hrest
  · rcases bind_error.1 hread with hsplit | ⟨window, c', hsplit, hrest⟩
    · obtain ⟨rfl, hless⟩ := split_error hsplit
      exact Cursor.lacks_fault hc hless
    · obtain ⟨_, _, _, hpass⟩ := split_ok.1 hsplit
      exact (hnext window (within_of_split hc hsplit)).fault (hpass.within hc) hrest

/-! ## Loops -/

theorem faults_times {reader : Reader α} (h : reader.FaultsWithin total) (count : Nat) :
    (times count reader).FaultsWithin total := by
  induction count with
  | zero => exact faults_pure []
  | succ count ih => exact faults_bind h fun _ => faults_bind ih fun _ => faults_pure _

theorem faults_untilEnd {reader : Reader α} (h : reader.FaultsWithin total) (limit : Nat) :
    (untilEnd limit reader).FaultsWithin total := by
  induction limit with
  | zero => exact faults_pure []
  | succ limit ih =>
      refine faults_bind faults_get fun c => ?_
      split
      · exact faults_pure []
      · exact faults_bind h fun _ => faults_bind ih fun _ => faults_pure _

theorem faults_many {reader : Reader α} (h : reader.FaultsWithin total) :
    (many reader).FaultsWithin total :=
  faults_bind faults_get fun _ => faults_untilEnd h _

end Reader

open Reader

/-! ## Records -/

section Records

variable {total : Nat} (network : Network)

theorem SizedFile.faults_read : SizedFile.read.FaultsWithin total :=
  faults_bind (faults_octets 32) fun _ => faults_bind faults_word64 fun _ => faults_pure _

theorem Upload.faults_read : (Upload.read network).FaultsWithin total :=
  faults_bind (faults_octets 32) fun _ => faults_bind faults_word64 fun _ => faults_pure _

theorem VerificationFailure.faults_read :
    (VerificationFailure.read network).FaultsWithin total := by
  refine faults_bind faults_word32 fun size => ?_
  simp only []
  split
  · exact faults_throw (.malformed _ (by decide))
  · exact faults_bind (faults_octets 32) fun _ =>
      faults_bind (faults_times (faults_octets 32) _) fun _ => faults_pure _

theorem Cosignature.faults_read : (Cosignature.read network).FaultsWithin total :=
  faults_bind (faults_octets 32) fun _ => faults_bind (faults_octets 64) fun _ => faults_pure _

theorem Payload.faults_read (shape : Shape) : (Payload.read network shape).FaultsWithin total := by
  have hkey : (octets 32).FaultsWithin total := faults_octets 32
  have hfiles : ∀ count : UInt16, (times count.toNat SizedFile.read).FaultsWithin total :=
    fun count => faults_times SizedFile.faults_read count.toNat
  have hhashes : ∀ count : UInt16, (times count.toNat (octets 32)).FaultsWithin total :=
    fun count => faults_times hkey count.toNat
  cases shape with
  | prepareDrive =>
      exact faults_bind hkey fun _ => faults_bind faults_word64 fun _ =>
        faults_bind faults_word64 fun _ => faults_bind faults_word64 fun _ =>
        faults_bind faults_word64 fun _ => faults_bind faults_word16 fun _ =>
        faults_bind faults_word16 fun _ => faults_bind faults_word8 fun _ => faults_pure _
  | joinToDrive | endDrive | startDriveVerification =>
      exact faults_bind hkey fun _ => faults_pure _
  | driveFileSystem =>
      exact faults_bind hkey fun _ => faults_bind hkey fun _ => faults_bind hkey fun _ =>
        faults_bind faults_word16 fun adds => faults_bind faults_word16 fun removes =>
        faults_bind (hfiles adds) fun _ => faults_bind (hhashes removes) fun _ => faults_pure _
  | filesDeposit =>
      exact faults_bind hkey fun _ => faults_bind faults_word16 fun count =>
        faults_bind (hhashes count) fun _ => faults_pure _
  | driveFilesReward =>
      exact faults_bind faults_word16 fun _ =>
        faults_bind (faults_times (Upload.faults_read network) _) fun _ => faults_pure _
  | endDriveVerification =>
      exact faults_bind (faults_many (VerificationFailure.faults_read network)) fun _ =>
        faults_pure _
  | startFileDownload =>
      exact faults_bind hkey fun _ => faults_bind faults_word16 fun count =>
        faults_bind (hfiles count) fun _ => faults_pure _
  | endFileDownload =>
      exact faults_bind hkey fun _ => faults_bind hkey fun _ =>
        faults_bind faults_word16 fun count => faults_bind (hfiles count) fun _ => faults_pure _
  | aggregate => exact faults_throw (.malformed _ (by decide))

end Records

namespace Header

variable {total : Nat}

theorem faults_readIdentity : readIdentity.FaultsWithin total := by
  refine faults_bind (faults_octets 32) fun _ => faults_bind faults_word32 fun packed =>
    faults_bind faults_word16 fun code => ?_
  split
  · next e htype =>
      rw [TransactionType.ofCode_error htype]
      exact faults_throw (.unsupportedType code)
  · split
    · next e hnetwork =>
        obtain ⟨byte, rfl⟩ := Network.ofPacked_error hnetwork
        exact faults_throw (.network byte)
    · exact faults_pure _

/-- The announced size may be another one than there are bytes. -/
theorem readSize_error {available : Nat} {c c' : Cursor} {e : TransactionError}
    (hc : c.Within total) (h : readSize available c = .error e c') :
    ReadFault total e ∨ ∃ announced : UInt32, announced.toNat ≠ available ∧
      e = .sizeMismatch announced.toNat available ∧
      ∃ c₁, c.Passes (bytes32 announced) c₁ := by
  rcases bind_error.1 h with hword | ⟨announced, c₁, hword, hcheck⟩
  · exact .inl (faults_word32.fault hc hword)
  · split at hcheck
    · cases hcheck
    · next hne =>
        cases hcheck
        exact .inr ⟨announced, hne, rfl, _, word32_ok.1 hword⟩

theorem read_error {available : Nat} {c c' : Cursor} {e : TransactionError}
    (hc : c.Within total) (h : read available c = .error e c') :
    ReadFault total e ∨ ∃ announced : UInt32, announced.toNat ≠ available ∧
      e = .sizeMismatch announced.toNat available ∧
      ∃ c₁, c.Passes (bytes32 announced) c₁ := by
  rcases bind_error.1 h with hsize | ⟨_, c₁, hsize, hrest⟩
  · exact readSize_error hc hsize
  · refine .inl (Reader.FaultsWithin.fault ?_ ((readSize_ok.1 hsize).2.within hc) hrest)
    exact faults_bind (faults_octets 64) fun _ => faults_bind faults_readIdentity fun _ =>
      faults_bind faults_word64 fun _ => faults_bind faults_word64 fun _ => faults_pure _

/-- In a window that is as long as its first bytes say the size is right. -/
theorem readEmbedded_error {size : UInt32} {c c₁ c' : Cursor} {e : TransactionError}
    (hc : c.Within total) (hsize : c.rest <+: c₁.rest)
    (hpeek : ∃ c₂, c₁.Passes (bytes32 size) c₂)
    (h : readEmbedded size.toNat c = .error e c') : ReadFault total e := by
  rcases bind_error.1 h with hread | ⟨_, c₃, hread, hrest⟩
  · rcases readSize_error hc hread with hfault | ⟨announced, hne, _, c₃, hpass⟩
    · exact hfault
    · obtain ⟨c₂, hpass'⟩ := hpeek
      obtain ⟨behind, hbehind⟩ := hsize
      rw [hpass.1, List.append_assoc] at hbehind
      have hbytes : bytes32 announced = bytes32 size :=
        (List.append_inj (hbehind.trans hpass'.1) rfl).1
      have heq : announced = size := by
        rw [← value_bytes32 announced, hbytes, value_bytes32]
      exact absurd (congrArg UInt32.toNat heq) hne
  · refine Reader.FaultsWithin.fault ?_ ((readSize_ok.1 hread).2.within hc) hrest
    exact faults_bind faults_readIdentity fun _ => faults_pure _

end Header

namespace Transaction

variable {total : Nat}

/-! ## Transactions -/

theorem faults_readInner : readInner.FaultsWithin total := by
  refine ⟨fun {c tx c'} hc hread => ?_, fun {c e c'} hc hread => ?_⟩
  · obtain ⟨b, _, hpass⟩ := (readInner_accepts c c' tx).1 hread
    exact hpass.within hc
  · rcases bind_error.1 hread with hpeek | ⟨size, c₁, hpeek, hread⟩
    · exact faults_peek32.fault hc hpeek
    · obtain ⟨rfl, hsize⟩ := peek32_ok.1 hpeek
      rcases bind_error.1 hread with hsplit | ⟨window, c₂, hsplit, hread⟩
      · obtain ⟨rfl, hless⟩ := split_error hsplit
        exact Cursor.lacks_fault hc hless
      · have hwindow := within_of_split hc hsplit
        obtain ⟨front, _, rfl, hpass⟩ := split_ok.1 hsplit
        have hfront : front <+: c.rest := ⟨c₂.rest, hpass.1.symm⟩
        unfold Reader.on at hread
        split at hread
        · cases hread
        · next hfail =>
            cases hread
            rcases bind_error.1 hfail with hheader | ⟨header, c₃, hheader, hrest⟩
            · exact Header.readEmbedded_error hwindow hfront hsize hheader
            · obtain ⟨_, _, b, _, hpass'⟩ := Header.readEmbedded_ok.1 hheader
              refine Reader.FaultsWithin.fault ?_ (hpass'.within hwindow) hrest
              exact faults_bind (Payload.faults_read _ _) fun _ =>
                faults_bind faults_expectEnd fun _ => faults_pure _

theorem faults_readCosignatures (network : Network) :
    (readCosignatures network).FaultsWithin total := by
  refine faults_bind faults_get fun c => ?_
  split
  · exact faults_throw (.malformed _ (by decide))
  · exact faults_many (Cosignature.faults_read network)

theorem faults_readBody (header : Header) (shape : Shape) :
    (readBody header shape).FaultsWithin total := by
  by_cases hshape : shape = .aggregate
  · subst hshape
    refine faults_bind faults_word32 fun size => faults_split fun window hwindow => ?_
    exact faults_bind (faults_on hwindow (faults_many faults_readInner)) fun _ =>
      faults_bind (faults_readCosignatures header.network) fun _ => faults_pure _
  · rw [readBody_of_ne hshape]
    exact faults_bind (Payload.faults_read header.network shape) fun _ => faults_pure _

/-- Bytes that declare a type are read as a header of this type, if as any. -/
theorem declaredType_of_read {b : List UInt8} {header : Header} {c : Cursor}
    (h : Header.read b.length (Cursor.start b) = .ok header c) :
    declaredType b = .ok header.type := by
  obtain ⟨_, _, front, hfront, hrest, _⟩ := Header.read_ok.1 h
  have hb : b = front ++ c.rest := hrest
  rw [hb]
  exact declaredType_of_header hfront c.rest

theorem declaredType_error {b : List UInt8} {e : TransactionError}
    (h : declaredType b = .error e) : ReadFault b.length e := by
  unfold declaredType at h
  split at h
  · next hlen =>
      cases h
      exact .truncated hlen (by omega)
  · rw [TransactionType.ofCode_error h]
    exact .unsupportedType _

/-- Bytes that are not read are at fault themselves: the size that they announce is
another one than they have, or one of the faults is found in them. -/
theorem ofBytes_error {b : List UInt8} {e : TransactionError} (h : ofBytes b = .error e) :
    ReadFault b.length e ∨ ∃ announced : UInt32, bytes32 announced <+: b ∧
      announced.toNat ≠ b.length ∧ e = .sizeMismatch announced.toNat b.length := by
  have hstart : (Cursor.start b).Within b.length := by
    unfold Cursor.Within Cursor.start Cursor.remaining
    simp only []
    omega
  unfold ofBytes at h
  split at h
  · next hdeclared =>
      cases h
      exact .inl (declaredType_error hdeclared)
  · next type hdeclared =>
      unfold ofBytesAs run at h
      split at h
      · cases h
      · next hfail =>
          cases h
          rcases bind_error.1 hfail with hheader | ⟨header, c₁, hheader, hrest⟩
          · rcases Header.read_error hstart hheader with hfault | ⟨announced, hne, rfl, c₁, hpass⟩
            · exact .inl hfault
            · exact .inr ⟨announced, ⟨c₁.rest, hpass.1.symm⟩, hne, rfl⟩
          · have htype := declaredType_of_read hheader
            rw [hdeclared] at htype
            cases htype
            obtain ⟨_, _, front, _, hpass⟩ := Header.read_ok.1 hheader
            have hcheck : header.type.shape.check header.type = .ok () := Shape.check_ok.2 rfl
            rw [hcheck] at hrest
            refine .inl (Reader.FaultsWithin.fault ?_ (hpass.within hstart) hrest)
            exact faults_bind (faults_readBody header _) fun _ =>
              faults_bind faults_expectEnd fun _ => faults_pure _

end Transaction

end DriveChain
