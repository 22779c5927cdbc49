import DriveChain.Proofs.HeaderBytes
import DriveChain.Transaction.Bytes

/-!
# Payloads are read back as they were written

Each of the ten payloads has a reader of its own, and so there are two theorems
with ten cases each. `Payload.read_sound` goes from what was read to the bytes:
they are the payload's own, and its accounts are derived on the network that it
was read for. `Payload.read_complete` goes from what was written to the reader:
it gives the payload, with its accounts derived anew. Neither needs the bytes to
be all there is, except that uncounted failures are read to the end.

The lists inside are dealt with by kind. Entries of a fixed width go through the
two loops as they are; a failure announces its own width, and has to announce a
whole number of hashes, which is why its size can be checked before any of them
is read.
-/

namespace DriveChain

open Reader

variable {α : Type}

/-! ## Lists on the wire -/

theorem Reader.times_written {reader : Reader α} {P : α → Prop}
    {write : α → List UInt8} (h : Accepts reader (Form.written P write)) {count : Nat}
    {c c' : Cursor} {as : List α} :
    times count reader c = .ok as c' ↔
      as.length = count ∧ (∀ a ∈ as, P a) ∧ c.Passes (as.flatMap write) c' := by
  rw [times_accepts h]
  refine and_congr_right fun _ => ?_
  refine ⟨fun hread => ?_, fun hread => ?_⟩
  · obtain ⟨bytes, heach, hpass⟩ := hread
    obtain ⟨hall, rfl⟩ := Form.each_written.1 heach
    exact ⟨hall, hpass⟩
  · exact ⟨_, Form.each_written.2 ⟨hread.1, rfl⟩, hread.2⟩

/-- A writer of lists that writes entries one after the other, and fails if one
of them does. -/
theorem Form.each_of_write {P : α → Prop}
    {write : α → Except TransactionError (List UInt8)}
    {writeAll : List α → Except TransactionError (List UInt8)}
    (hnil : writeAll [] = .ok [])
    (hcons : ∀ a as bytes, writeAll (a :: as) = .ok bytes ↔
      ∃ x y, write a = .ok x ∧ writeAll as = .ok y ∧ bytes = x ++ y)
    {as : List α} {bytes : List UInt8} :
    Form.Each (fun a x => P a ∧ write a = .ok x) as bytes ↔
      (∀ a ∈ as, P a) ∧ writeAll as = .ok bytes := by
  induction as generalizing bytes with
  | nil =>
      rw [Form.each_nil, hnil]
      simp [eq_comm]
  | cons a as ih =>
      rw [Form.each_cons, hcons, List.forall_mem_cons]
      refine ⟨fun h => ?_, fun h => ?_⟩
      · obtain ⟨x, y, ⟨ha, hx⟩, has, rfl⟩ := h
        obtain ⟨hall, hy⟩ := ih.1 has
        exact ⟨⟨ha, hall⟩, x, y, hx, hy, rfl⟩
      · obtain ⟨⟨ha, hall⟩, x, y, hx, hy, rfl⟩ := h
        exact ⟨x, y, ⟨ha, hx⟩, ih.2 ⟨hall, hy⟩, rfl⟩

theorem length_flatMap_of_width {write : α → List UInt8} {width : Nat}
    (hwidth : ∀ a, (write a).length = width) (as : List α) :
    (as.flatMap write).length = width * as.length := by
  induction as with
  | nil => rfl
  | cons a as ih =>
      rw [List.flatMap_cons, List.length_append, hwidth, ih, List.length_cons,
        Nat.mul_succ, Nat.add_comm]

theorem wireCount_ok {field : String} {n : Nat} {count : UInt16} :
    wireCount field n = .ok count ↔ n = count.toNat := by
  unfold wireCount
  split
  · next hlt =>
      rw [Except.ok.injEq, ← UInt16.toNat_inj, UInt16.toNat_ofNat_of_lt' hlt]
  · next hlt =>
      have hcount := count.toNat_lt
      simp only [UInt16.size] at hlt
      simp only [reduceCtorEq, false_iff]
      omega

theorem length_octets_flatMap {n : Nat} (as : List (Octets n)) :
    (as.flatMap Octets.bytes).length = n * as.length :=
  length_flatMap_of_width Octets.length_bytes as

theorem Reader.octets_accepts (n : Nat) :
    Accepts (octets n) (Form.written (fun _ => True) Octets.bytes) := by
  intro c c' a
  rw [octets_ok]
  simp [Form.written]

/-! ## Entries -/

theorem SizedFile.length_bytes (file : SizedFile) :
    file.bytes.length = Layout.sizedFile := by
  rw [bytes, List.length_append, file.hash.length_bytes, length_bytes64]
  rfl

theorem SizedFile.read_accepts :
    Accepts read (Form.written (fun _ => True) SizedFile.bytes) := by
  intro c c' file
  simp only [read, Form.written, bind_ok, octets_ok, word64_ok, pure_ok, true_and,
    exists_eq_left]
  rw [bytes, Cursor.passes_append]
  refine ⟨fun h => ?_, fun h => ?_⟩
  · obtain ⟨hash, c₁, hhash, size, c₂, hsize, rfl, rfl⟩ := h
    exact ⟨c₁, hhash, hsize⟩
  · obtain ⟨c₁, hhash, hsize⟩ := h
    exact ⟨_, c₁, hhash, _, c', hsize, rfl, rfl⟩

theorem Upload.length_bytes (u : Upload) : u.bytes.length = Layout.upload := by
  rw [bytes, List.length_append, u.participant.key.length_bytes, length_bytes64]
  rfl

theorem Upload.read_accepts (network : Network) :
    Accepts (read network)
      (Form.written (fun u => u.on network = u) Upload.bytes) := by
  intro c c' u
  simp only [read, Form.written, bind_ok, octets_ok, word64_ok, pure_ok, and_assoc,
    exists_and_left, exists_eq_left]
  rw [bytes, Cursor.passes_append]
  refine ⟨fun h => ?_, fun h => ?_⟩
  · obtain ⟨key, c₁, hkey, size, c₂, hsize, rfl, rfl⟩ := h
    exact ⟨rfl, c₁, hkey, hsize⟩
  · obtain ⟨hon, c₁, hkey, hsize⟩ := h
    exact ⟨_, c₁, hkey, _, c', hsize, hon, rfl⟩

theorem Cosignature.length_bytes (s : Cosignature) :
    s.bytes.length = Layout.cosignature := by
  rw [bytes, List.length_append, s.signer.key.length_bytes, s.signature.length_bytes]
  rfl

theorem Cosignature.read_accepts (network : Network) :
    Accepts (read network)
      (Form.written (fun s => s.on network = s) Cosignature.bytes) := by
  intro c c' s
  simp only [read, Form.written, bind_ok, octets_ok, pure_ok, and_assoc,
    exists_and_left, exists_eq_left]
  rw [bytes, Cursor.passes_append]
  refine ⟨fun h => ?_, fun h => ?_⟩
  · obtain ⟨key, c₁, hkey, signature, c₂, hsignature, rfl, rfl⟩ := h
    exact ⟨rfl, c₁, hkey, hsignature⟩
  · obtain ⟨hon, c₁, hkey, hsignature⟩ := h
    exact ⟨_, c₁, hkey, _, c', hsignature, hon, rfl⟩

namespace VerificationFailure

theorem bytes_ok {f : VerificationFailure} {b : List UInt8} :
    f.bytes = .ok b ↔ f.size < UInt32.size ∧
      b = bytes32 (UInt32.ofNat f.size) ++ f.replicator.key.bytes ++
        f.blocks.flatMap Octets.bytes := by
  unfold bytes
  split
  · next hlt => simp [hlt, eq_comm]
  · next hlt => simp [hlt]

theorem length_bytes {f : VerificationFailure} {b : List UInt8} (h : f.bytes = .ok b) :
    b.length = f.size := by
  obtain ⟨_, rfl⟩ := bytes_ok.1 h
  rw [List.length_append, List.length_append, length_bytes32,
    f.replicator.key.length_bytes, length_octets_flatMap]
  rfl

/-- The announced size of a failure says how many hashes it has. -/
theorem read_accepts (network : Network) :
    Accepts (read network) (fun f b => f.on network = f ∧ f.bytes = .ok b) := by
  intro c c' f
  simp only [read, bind_ok, word32_ok]
  refine ⟨fun h => ?_, fun h => ?_⟩
  · obtain ⟨announced, c₁, hsize, hrest⟩ := h
    split at hrest
    · exact (throw_ok.1 hrest).elim
    · next hcheck =>
        simp only [bind_ok, octets_ok, times_written (octets_accepts 32), pure_ok]
          at hrest
        obtain ⟨key, c₂, hkey, blocks, c₃, ⟨hlen, _, hblocks⟩, rfl, rfl⟩ := hrest
        have hsum : size ⟨.ofKey key network, blocks⟩ = announced.toNat := by
          show 36 + 32 * blocks.length = announced.toNat
          simp only [Layout.failure, Layout.file] at hcheck hlen
          omega
        refine ⟨_, ⟨rfl, bytes_ok.2 ⟨?_, rfl⟩⟩, ?_⟩
        · rw [hsum]
          exact announced.toNat_lt
        · rw [hsum, UInt32.ofNat_toNat]
          simp only [Cursor.passes_append]
          exact ⟨c₂, ⟨c₁, hsize, hkey⟩, hblocks⟩
  · obtain ⟨b, ⟨hon, hb⟩, hpass⟩ := h
    obtain ⟨hlt, rfl⟩ := bytes_ok.1 hb
    simp only [Cursor.passes_append] at hpass
    obtain ⟨c₂, ⟨c₁, hsize, hkey⟩, hblocks⟩ := hpass
    have hannounced : (UInt32.ofNat f.size).toNat = 36 + 32 * f.blocks.length :=
      UInt32.toNat_ofNat_of_lt' hlt
    refine ⟨_, c₁, hsize, ?_⟩
    rw [hannounced, if_neg (by simp only [Layout.failure, Layout.file]; omega)]
    simp only [bind_ok, octets_ok, times_written (octets_accepts 32), pure_ok]
    refine ⟨_, c₂, hkey, _, c', ⟨?_, fun _ _ => trivial, hblocks⟩, hon, rfl⟩
    simp only [Layout.failure, Layout.file]
    omega

theorem bytes_ne_nil {network : Network} (f : VerificationFailure) (b : List UInt8)
    (h : f.on network = f ∧ f.bytes = .ok b) : b ≠ [] := by
  intro hnil
  have hlen := length_bytes h.2
  rw [hnil] at hlen
  simp only [List.length_nil, size, Layout.failure] at hlen
  omega

theorem listBytes_nil : listBytes [] = .ok [] := rfl

theorem listBytes_cons {f : VerificationFailure} {fs : List VerificationFailure}
    {b : List UInt8} :
    listBytes (f :: fs) = .ok b ↔
      ∃ x y, f.bytes = .ok x ∧ listBytes fs = .ok y ∧ b = x ++ y := by
  rw [listBytes]
  cases f.bytes with
  | error e => simp
  | ok x =>
      cases listBytes fs with
      | error e => simp
      | ok y => simp [eq_comm]

/-- The addresses of replicators are not written. -/
theorem listBytes_map_on (network : Network) (fs : List VerificationFailure) :
    listBytes (fs.map (on network)) = listBytes fs := by
  induction fs with
  | nil => rfl
  | cons f fs ih =>
      rw [List.map_cons, listBytes, listBytes, ih]
      rfl

theorem length_listBytes {fs : List VerificationFailure} {b : List UInt8}
    (h : listBytes fs = .ok b) : b.length = listSize fs := by
  induction fs generalizing b with
  | nil =>
      cases h
      rfl
  | cons f fs ih =>
      obtain ⟨x, y, hx, hy, rfl⟩ := listBytes_cons.1 h
      rw [List.length_append, length_bytes hx, ih hy, listSize]

/-- Failures are read to the end of the bytes. -/
theorem many_read_ok {network : Network} {fs : List VerificationFailure}
    {c c' : Cursor} :
    many (read network) c = .ok fs c' ↔ c'.rest = [] ∧
      (∀ f ∈ fs, f.on network = f) ∧
      ∃ b, listBytes fs = .ok b ∧ c.Passes b c' := by
  rw [many_accepts (read_accepts network) bytes_ne_nil]
  have heach : ∀ b, Form.Each (fun f x => f.on network = f ∧ f.bytes = .ok x) fs b ↔
      (∀ f ∈ fs, f.on network = f) ∧ listBytes fs = .ok b :=
    fun b => Form.each_of_write listBytes_nil (fun _ _ _ => listBytes_cons)
  simp only [heach, and_assoc, exists_and_left]

end VerificationFailure

/-! ## Payloads -/

namespace Payload

/-! Writing fails where a list has more entries than its count can say, and
nowhere else but in a failure. -/

theorem bytes_driveFileSystem_ok {change : FileSystemChange} {b : List UInt8} :
    (driveFileSystem change).bytes = .ok b ↔ ∃ adds removes : UInt16,
      change.added.length = adds.toNat ∧ change.removed.length = removes.toNat ∧
        b = change.drive.key.bytes ++ change.newRoot.bytes ++ change.xorRoot.bytes ++
          bytes16 adds ++ bytes16 removes ++ change.added.flatMap SizedFile.bytes ++
          change.removed.flatMap Octets.bytes := by
  rw [bytes]
  cases hadds : wireCount "addActions" change.added.length with
  | error e => simp [← @wireCount_ok "addActions", hadds]
  | ok adds =>
      cases hremoves : wireCount "removeActions" change.removed.length with
      | error e => simp [← @wireCount_ok "removeActions", hremoves]
      | ok removes =>
          rw [wireCount_ok.1 hadds, wireCount_ok.1 hremoves]
          simp [UInt16.toNat_inj, eq_comm]

theorem bytes_filesDeposit_ok {drive : Account} {files : List (Octets 32)}
    {b : List UInt8} :
    (filesDeposit drive files).bytes = .ok b ↔ ∃ count : UInt16,
      files.length = count.toNat ∧
        b = drive.key.bytes ++ bytes16 count ++ files.flatMap Octets.bytes := by
  simp only [bytes, ← @wireCount_ok "files"]
  cases hcount : wireCount "files" files.length with
  | error e => simp
  | ok count => simp [eq_comm]

theorem bytes_driveFilesReward_ok {uploads : List Upload} {b : List UInt8} :
    (driveFilesReward uploads).bytes = .ok b ↔ ∃ count : UInt16,
      uploads.length = count.toNat ∧
        b = bytes16 count ++ uploads.flatMap Upload.bytes := by
  simp only [bytes, ← @wireCount_ok "uploadInfos"]
  cases hcount : wireCount "uploadInfos" uploads.length with
  | error e => simp
  | ok count => simp [eq_comm]

theorem bytes_startFileDownload_ok {drive : Account} {files : List SizedFile}
    {b : List UInt8} :
    (startFileDownload drive files).bytes = .ok b ↔ ∃ count : UInt16,
      files.length = count.toNat ∧
        b = drive.key.bytes ++ (bytes16 count ++ files.flatMap SizedFile.bytes) := by
  simp only [bytes, filesBytes, ← @wireCount_ok "files"]
  cases hcount : wireCount "files" files.length with
  | error e => simp
  | ok count => simp [eq_comm]

theorem bytes_endFileDownload_ok {recipient : Account} {token : Octets 32}
    {files : List SizedFile} {b : List UInt8} :
    (endFileDownload recipient token files).bytes = .ok b ↔ ∃ count : UInt16,
      files.length = count.toNat ∧ b = recipient.key.bytes ++ token.bytes ++
        (bytes16 count ++ files.flatMap SizedFile.bytes) := by
  simp only [bytes, filesBytes, ← @wireCount_ok "files"]
  cases hcount : wireCount "files" files.length with
  | error e => simp
  | ok count => simp [eq_comm]

theorem read_sound {network : Network} {shape : Shape} {p : Payload} {c c' : Cursor}
    (h : read network shape c = .ok p c') :
    p.shape = shape ∧ p.on network = p ∧ ∃ b, p.bytes = .ok b ∧ c.Passes b c' := by
  cases shape with
  | prepareDrive =>
      simp only [read, bind_ok, octets_ok, word64_ok, word16_ok, word8_ok, pure_ok] at h
      obtain ⟨owner, c₁, h₁, duration, c₂, h₂, period, c₃, h₃, price, c₄, h₄, size, c₅,
        h₅, replicas, c₆, h₆, replicators, c₇, h₇, percent, c₈, h₈, rfl, rfl⟩ := h
      refine ⟨rfl, rfl, _, rfl, ?_⟩
      simp only [Cursor.passes_append]
      exact ⟨c₇, ⟨c₆, ⟨c₅, ⟨c₄, ⟨c₃, ⟨c₂, ⟨c₁, h₁, h₂⟩, h₃⟩, h₄⟩, h₅⟩, h₆⟩, h₇⟩, h₈⟩
  | joinToDrive | endDrive | startDriveVerification =>
      simp only [read, bind_ok, octets_ok, pure_ok] at h
      obtain ⟨drive, c₁, hdrive, rfl, rfl⟩ := h
      exact ⟨rfl, rfl, _, rfl, hdrive⟩
  | driveFileSystem =>
      simp only [read, bind_ok, octets_ok, word16_ok, times_written SizedFile.read_accepts,
        times_written (octets_accepts 32), pure_ok] at h
      obtain ⟨drive, c₁, h₁, newRoot, c₂, h₂, xorRoot, c₃, h₃, adds, c₄, h₄, removes, c₅,
        h₅, added, c₆, ⟨hadds, _, h₆⟩, removed, c₇, ⟨hremoves, _, h₇⟩, rfl, rfl⟩ := h
      refine ⟨rfl, rfl, _, bytes_driveFileSystem_ok.2 ⟨adds, removes, hadds, hremoves, rfl⟩, ?_⟩
      simp only [FileSystemChange.xorRoot, Octets.xor_xor_left, Cursor.passes_append]
      exact ⟨c₆, ⟨c₅, ⟨c₄, ⟨c₃, ⟨c₂, ⟨c₁, h₁, h₂⟩, h₃⟩, h₄⟩, h₅⟩, h₆⟩, h₇⟩
  | filesDeposit =>
      simp only [read, bind_ok, octets_ok, word16_ok, times_written (octets_accepts 32),
        pure_ok] at h
      obtain ⟨drive, c₁, h₁, count, c₂, h₂, files, c₃, ⟨hlen, _, h₃⟩, rfl, rfl⟩ := h
      refine ⟨rfl, rfl, _, bytes_filesDeposit_ok.2 ⟨count, hlen, rfl⟩, ?_⟩
      simp only [Cursor.passes_append]
      exact ⟨c₂, ⟨c₁, h₁, h₂⟩, h₃⟩
  | driveFilesReward =>
      simp only [read, bind_ok, word16_ok, times_written (Upload.read_accepts network),
        pure_ok] at h
      obtain ⟨count, c₁, h₁, uploads, c₂, ⟨hlen, hon, h₂⟩, rfl, rfl⟩ := h
      refine ⟨rfl, ?_, _, bytes_driveFilesReward_ok.2 ⟨count, hlen, rfl⟩, ?_⟩
      · rw [on, List.map_congr_left hon, List.map_id']
      · exact Cursor.passes_append.2 ⟨c₁, h₁, h₂⟩
  | endDriveVerification =>
      simp only [read, bind_ok, VerificationFailure.many_read_ok, pure_ok] at h
      obtain ⟨failures, c₁, ⟨_, hon, b, hb, hpass⟩, rfl, rfl⟩ := h
      refine ⟨rfl, ?_, b, hb, hpass⟩
      rw [on, List.map_congr_left hon, List.map_id']
  | startFileDownload =>
      simp only [read, bind_ok, octets_ok, word16_ok, times_written SizedFile.read_accepts,
        pure_ok] at h
      obtain ⟨drive, c₁, h₁, count, c₂, h₂, files, c₃, ⟨hlen, _, h₃⟩, rfl, rfl⟩ := h
      refine ⟨rfl, rfl, _, bytes_startFileDownload_ok.2 ⟨count, hlen, rfl⟩, ?_⟩
      simp only [Cursor.passes_append]
      exact ⟨c₁, h₁, c₂, h₂, h₃⟩
  | endFileDownload =>
      simp only [read, bind_ok, octets_ok, word16_ok, times_written SizedFile.read_accepts,
        pure_ok] at h
      obtain ⟨recipient, c₁, h₁, token, c₂, h₂, count, c₃, h₃, files, c₄, ⟨hlen, _, h₄⟩,
        rfl, rfl⟩ := h
      refine ⟨rfl, rfl, _, bytes_endFileDownload_ok.2 ⟨count, hlen, rfl⟩, ?_⟩
      simp only [Cursor.passes_append]
      exact ⟨c₂, ⟨c₁, h₁, h₂⟩, c₃, h₃, h₄⟩
  | aggregate => exact (throw_ok.1 h).elim

/-- A payload is read from its bytes, with its accounts derived anew. The bytes
may go on behind it, but not behind failures. -/
theorem read_complete (network : Network) {p : Payload} {b : List UInt8}
    {c c' : Cursor} (hb : p.bytes = .ok b) (hpass : c.Passes b c') (hend : c'.rest = []) :
    read network p.shape c = .ok (p.on network) c' := by
  cases p with
  | prepareDrive terms =>
      cases hb
      simp only [Cursor.passes_append] at hpass
      obtain ⟨c₇, ⟨c₆, ⟨c₅, ⟨c₄, ⟨c₃, ⟨c₂, ⟨c₁, h₁, h₂⟩, h₃⟩, h₄⟩, h₅⟩, h₆⟩, h₇⟩, h₈⟩ := hpass
      simp only [shape, read, bind_ok, octets_ok, word64_ok, word16_ok, word8_ok, pure_ok]
      exact ⟨_, c₁, h₁, _, c₂, h₂, _, c₃, h₃, _, c₄, h₄, _, c₅, h₅, _, c₆, h₆, _, c₇, h₇, _,
        c', h₈, rfl, rfl⟩
  | joinToDrive drive | endDrive drive | startDriveVerification drive =>
      cases hb
      simp only [shape, read, bind_ok, octets_ok, pure_ok]
      exact ⟨_, c', hpass, rfl, rfl⟩
  | driveFileSystem change =>
      obtain ⟨adds, removes, hadds, hremoves, rfl⟩ := bytes_driveFileSystem_ok.1 hb
      simp only [Cursor.passes_append] at hpass
      obtain ⟨c₆, ⟨c₅, ⟨c₄, ⟨c₃, ⟨c₂, ⟨c₁, h₁, h₂⟩, h₃⟩, h₄⟩, h₅⟩, h₆⟩, h₇⟩ := hpass
      have hold : change.xorRoot.xor change.newRoot = change.oldRoot :=
        Octets.xor_xor_right change.newRoot change.oldRoot
      simp only [shape, read, bind_ok, octets_ok, word16_ok,
        times_written SizedFile.read_accepts, times_written (octets_accepts 32), pure_ok]
      refine ⟨_, c₁, h₁, _, c₂, h₂, _, c₃, h₃, _, c₄, h₄, _, c₅, h₅,
        _, c₆, ⟨hadds, fun _ _ => trivial, h₆⟩,
        _, c', ⟨hremoves, fun _ _ => trivial, h₇⟩, ?_, rfl⟩
      rw [hold]
      rfl
  | filesDeposit drive files =>
      obtain ⟨count, hlen, rfl⟩ := bytes_filesDeposit_ok.1 hb
      simp only [Cursor.passes_append] at hpass
      obtain ⟨c₂, ⟨c₁, h₁, h₂⟩, h₃⟩ := hpass
      simp only [shape, read, bind_ok, octets_ok, word16_ok,
        times_written (octets_accepts 32), pure_ok]
      exact ⟨_, c₁, h₁, _, c₂, h₂, _, c', ⟨hlen, fun _ _ => trivial, h₃⟩, rfl, rfl⟩
  | driveFilesReward uploads =>
      obtain ⟨count, hlen, rfl⟩ := bytes_driveFilesReward_ok.1 hb
      obtain ⟨c₁, h₁, h₂⟩ := Cursor.passes_append.1 hpass
      have hderived : (uploads.map (Upload.on network)).length = count.toNat := by
        rw [List.length_map]
        exact hlen
      have hbytes : (uploads.map (Upload.on network)).flatMap Upload.bytes =
          uploads.flatMap Upload.bytes := by
        rw [List.flatMap_map]
        rfl
      simp only [shape, read, bind_ok, word16_ok,
        times_written (Upload.read_accepts network), pure_ok]
      refine ⟨_, c₁, h₁, _, c', ⟨hderived, ?_, ?_⟩, rfl, rfl⟩
      · exact List.forall_mem_map.2 fun _ _ => rfl
      · rw [hbytes]
        exact h₂
  | endDriveVerification failures =>
      have hbytes : VerificationFailure.listBytes
          (failures.map (VerificationFailure.on network)) = .ok b := by
        rw [VerificationFailure.listBytes_map_on]
        exact hb
      simp only [shape, read, bind_ok, VerificationFailure.many_read_ok, pure_ok]
      exact ⟨_, c', ⟨hend, List.forall_mem_map.2 fun _ _ => rfl, b, hbytes, hpass⟩, rfl, rfl⟩
  | startFileDownload drive files =>
      obtain ⟨count, hlen, rfl⟩ := bytes_startFileDownload_ok.1 hb
      simp only [Cursor.passes_append] at hpass
      obtain ⟨c₁, h₁, c₂, h₂, h₃⟩ := hpass
      simp only [shape, read, bind_ok, octets_ok, word16_ok,
        times_written SizedFile.read_accepts, pure_ok]
      exact ⟨_, c₁, h₁, _, c₂, h₂, _, c', ⟨hlen, fun _ _ => trivial, h₃⟩, rfl, rfl⟩
  | endFileDownload recipient token files =>
      obtain ⟨count, hlen, rfl⟩ := bytes_endFileDownload_ok.1 hb
      simp only [Cursor.passes_append] at hpass
      obtain ⟨c₂, ⟨c₁, h₁, h₂⟩, c₃, h₃, h₄⟩ := hpass
      simp only [shape, read, bind_ok, octets_ok, word16_ok,
        times_written SizedFile.read_accepts, pure_ok]
      exact ⟨_, c₁, h₁, _, c₂, h₂, _, c₃, h₃, _, c', ⟨hlen, fun _ _ => trivial, h₄⟩,
        rfl, rfl⟩

/-- A payload takes the bytes that its size says, its header's apart. -/
theorem length_bytes {p : Payload} {b : List UInt8} (hb : p.bytes = .ok b) :
    Layout.headerSize + b.length = p.size := by
  cases p with
  | prepareDrive terms =>
      cases hb
      simp only [List.length_append, terms.owner.key.length_bytes, length_bytes64,
        length_bytes16]
      rfl
  | joinToDrive drive | endDrive drive | startDriveVerification drive =>
      cases hb
      rw [drive.key.length_bytes]
      rfl
  | driveFileSystem change =>
      obtain ⟨adds, removes, _, _, rfl⟩ := bytes_driveFileSystem_ok.1 hb
      simp only [List.length_append, change.drive.key.length_bytes,
        change.newRoot.length_bytes, change.xorRoot.length_bytes, length_bytes16,
        length_flatMap_of_width SizedFile.length_bytes, length_octets_flatMap,
        size, Layout.driveFileSystem, Layout.file]
      omega
  | filesDeposit drive files =>
      obtain ⟨count, _, rfl⟩ := bytes_filesDeposit_ok.1 hb
      simp only [List.length_append, drive.key.length_bytes, length_bytes16,
        length_octets_flatMap, size, Layout.filesDeposit, Layout.file]
      omega
  | driveFilesReward uploads =>
      obtain ⟨count, _, rfl⟩ := bytes_driveFilesReward_ok.1 hb
      simp only [List.length_append, length_bytes16,
        length_flatMap_of_width Upload.length_bytes, size, Layout.driveFilesReward]
      omega
  | endDriveVerification failures =>
      rw [VerificationFailure.length_listBytes hb]
      rfl
  | startFileDownload drive files =>
      obtain ⟨count, _, rfl⟩ := bytes_startFileDownload_ok.1 hb
      simp only [List.length_append, drive.key.length_bytes, length_bytes16,
        length_flatMap_of_width SizedFile.length_bytes, size, Layout.startFileDownload]
      omega
  | endFileDownload recipient token files =>
      obtain ⟨count, _, rfl⟩ := bytes_endFileDownload_ok.1 hb
      simp only [List.length_append, recipient.key.length_bytes, token.length_bytes,
        length_bytes16, length_flatMap_of_width SizedFile.length_bytes, size,
        Layout.endFileDownload]
      omega

end Payload

end DriveChain
