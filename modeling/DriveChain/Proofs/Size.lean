import DriveChain.Proofs.TransactionBytes
import Mathlib.Algebra.Ring.Nat

/-!
# Sizes

A transaction announces its size before it is written, and what is written is as
long as that, however aggregates are nested and whatever their headers say. So the
last check of the writer never fails.

What can fail is the writing of a number that its slot does not hold. As long as the
whole has a size that four bytes hold, so has everything in it, and only the counts
are left, which have two bytes. The lists of a transaction and of all that is in it
are counted in the order in which they are written, so writing fails just if one of
them is too long, and reports the first of these.
-/

namespace DriveChain

/-! ## Failures -/

/-- Why there is no result, if there is none. -/
def failure {ε α : Type} : Except ε α → Option ε
  | .error e => some e
  | .ok _ => none

section Failure

variable {ε α : Type} {r : Except ε α}

theorem failure_eq_none : failure r = none ↔ ∃ a, r = .ok a := by
  cases r <;> simp [failure]

theorem failure_eq_some {e : ε} : failure r = some e ↔ r = .error e := by
  cases r <;> simp [failure]

end Failure

/-- What is reported of lists, given by their fields and their lengths: the first one
whose length two bytes do not hold. -/
def firstLong (lists : List (String × Nat)) : Option TransactionError :=
  (lists.find? fun l => UInt16.size ≤ l.2).map fun l => .invalid (.manyEntries l.1 l.2)

theorem firstLong_append (lists more : List (String × Nat)) :
    firstLong (lists ++ more) = (firstLong lists).or (firstLong more) := by
  rw [firstLong, List.find?_append, Option.map_or]
  rfl

theorem firstLong_eq_none {lists : List (String × Nat)} :
    firstLong lists = none ↔ ∀ l ∈ lists, l.2 < UInt16.size := by
  simp [firstLong]

theorem exists_of_firstLong {lists : List (String × Nat)} {e : TransactionError}
    (h : firstLong lists = some e) :
    ∃ l ∈ lists, UInt16.size ≤ l.2 ∧ e = .invalid (.manyEntries l.1 l.2) := by
  obtain ⟨l, hl, rfl⟩ := Option.map_eq_some_iff.1 h
  have hlong := List.find?_some hl
  exact ⟨l, List.mem_of_find?_eq_some hl, of_decide_eq_true hlong, rfl⟩

theorem failure_wireCount (field : String) (n : Nat) :
    failure (wireCount field n) = firstLong [(field, n)] := by
  unfold wireCount firstLong
  split
  · next hlt => simp [failure, hlt]
  · next hge => simp [failure, Nat.le_of_not_lt hge]

/-- A list whose count is written in front of what follows. -/
theorem failure_counted {α : Type} {field : String} {n : Nat} {lists : List (String × Nat)}
    {f : UInt16 → Except TransactionError α} (hf : ∀ count, failure (f count) = firstLong lists) :
    failure (match wireCount field n with
      | .error e => .error e
      | .ok count => f count) = firstLong ((field, n) :: lists) := by
  have hcount := failure_wireCount field n
  rw [← List.singleton_append, firstLong_append, ← hcount]
  cases wireCount field n with
  | error e => rfl
  | ok count => exact hf count

namespace VerificationFailure

theorem listBytes_of_listSize {fs : List VerificationFailure}
    (h : listSize fs < UInt32.size) : ∃ b, listBytes fs = .ok b := by
  induction fs with
  | nil => exact ⟨_, rfl⟩
  | cons f fs ih =>
      rw [listSize] at h
      obtain ⟨back, hback⟩ := ih (by omega)
      have hfront : f.bytes = .ok _ := bytes_ok.2 ⟨by omega, rfl⟩
      exact ⟨_, listBytes_cons.2 ⟨_, back, hfront, hback, rfl⟩⟩

theorem listSize_eq_sum (fs : List VerificationFailure) :
    listSize fs = (fs.map fun f => 36 + 32 * f.blocks.length).sum := by
  induction fs with
  | nil => rfl
  | cons f fs ih =>
      rw [listSize, ih, List.map_cons, List.sum_cons]
      rfl

end VerificationFailure

namespace Payload

/-- The lists that are counted on the wire, by their fields, with their lengths. -/
def counted : Payload → List (String × Nat)
  | .driveFileSystem change =>
    [("addActions", change.added.length), ("removeActions", change.removed.length)]
  | .filesDeposit _ files => [("files", files.length)]
  | .driveFilesReward uploads => [("uploadInfos", uploads.length)]
  | .startFileDownload _ files => [("files", files.length)]
  | .endFileDownload _ _ files => [("files", files.length)]
  | _ => []

theorem failure_bytes {p : Payload} (h : p.size - Layout.headerSize < UInt32.size) :
    failure p.bytes = firstLong p.counted := by
  cases p with
  | driveFileSystem change =>
      exact failure_counted fun _ => failure_counted fun _ => rfl
  | filesDeposit drive files => exact failure_counted fun _ => rfl
  | driveFilesReward uploads => exact failure_counted fun _ => rfl
  | startFileDownload drive files | endFileDownload recipient token files =>
      have hfiles : failure (filesBytes files) = firstLong [("files", files.length)] :=
        failure_counted fun _ => rfl
      rw [bytes, counted, ← hfiles]
      cases filesBytes files <;> rfl
  | endDriveVerification failures =>
      simp only [size, Layout.endDriveVerification] at h
      exact failure_eq_none.2 (VerificationFailure.listBytes_of_listSize (by omega))
  | _ => rfl

/-- The bytes of a transaction with the payload, in figures. -/
def figure : Payload → Nat
  | .prepareDrive _ => 191
  | .joinToDrive _ => 154
  | .driveFileSystem change => 222 + 40 * change.added.length + 32 * change.removed.length
  | .filesDeposit _ files => 156 + 32 * files.length
  | .endDrive _ => 154
  | .driveFilesReward uploads => 124 + 40 * uploads.length
  | .startDriveVerification _ => 154
  | .endDriveVerification failures =>
    122 + (failures.map fun failure => 36 + 32 * failure.blocks.length).sum
  | .startFileDownload _ files => 156 + 40 * files.length
  | .endFileDownload _ _ files => 188 + 40 * files.length

theorem size_eq_figure (p : Payload) : p.size = p.figure := by
  cases p with
  | endDriveVerification failures =>
      rw [size, VerificationFailure.listSize_eq_sum]
      rfl
  | _ => rfl

end Payload

namespace Transaction

mutual

/-- The lists that are counted on the wire in a transaction and in all that is in it,
in the order in which they are written. -/
def counted : Transaction → List (String × Nat)
  | .single _ payload => payload.counted
  | .aggregate _ inner _ => countedList inner

/-- The lists that are counted in transactions, in order. -/
def countedList : List Transaction → List (String × Nat)
  | [] => []
  | tx :: rest => counted tx ++ countedList rest

end

mutual

theorem failure_payloadBytes : ∀ tx : Transaction,
    tx.size - Layout.headerSize < UInt32.size →
      failure tx.payloadBytes = firstLong tx.counted
  | .single header payload => by
      intro h
      rw [size] at h
      rw [payloadBytes, counted]
      exact Payload.failure_bytes h
  | .aggregate header inner cosignatures => by
      intro h
      have hlt : innerSize inner < UInt32.size := by
        rw [size, Layout.aggregate] at h
        omega
      rw [payloadBytes, if_pos hlt, counted, ← failure_innerBytes inner hlt]
      cases innerBytes inner <;> rfl

/-- What is in an aggregate is smaller than it, so it has a size that fits as well. -/
theorem failure_innerBytes : ∀ txs : List Transaction, innerSize txs < UInt32.size →
    failure (innerBytes txs) = firstLong (countedList txs)
  | [] => by
      intro _
      rw [innerBytes_nil, countedList]
      rfl
  | tx :: rest => by
      intro h
      rw [innerSize] at h
      have hlt : tx.size - Layout.embeddedReduction < UInt32.size := by omega
      have hfirst := failure_payloadBytes tx (by
        simp only [Layout.embeddedReduction, Layout.headerSize, Layout.embeddedHeaderSize]
          at hlt ⊢
        omega)
      have hrest := failure_innerBytes rest (by omega)
      rw [innerBytes_step, Header.embeddedBytes_ok.2 ⟨hlt, rfl⟩, countedList,
        firstLong_append, ← hfirst, ← hrest]
      cases tx.payloadBytes with
      | error e => rfl
      | ok body => cases innerBytes rest <;> rfl

end

theorem failure_toBytes {tx : Transaction} (h : tx.size < UInt32.size) :
    failure tx.toBytes = firstLong tx.counted := by
  have hbody := failure_payloadBytes tx (by omega)
  have hfront : tx.header.bytes tx.size = .ok _ := Header.bytes_ok.2 ⟨h, rfl⟩
  rw [← hbody]
  cases hpayload : tx.payloadBytes with
  | error e =>
      rw [toBytes, hfront, hpayload]
  | ok body =>
      have hbytes : tx.toBytes = .ok _ := toBytes_ok.2 ⟨_, body, hfront, hpayload, rfl⟩
      rw [hbytes]
      rfl

/-- The bytes of a transaction, in figures. -/
def figure : Transaction → Nat
  | .single _ payload => payload.figure
  | .aggregate _ inner cosignatures =>
    126 + (inner.map fun part => part.size - 80).sum + 96 * cosignatures.length

theorem innerSize_eq_sum (txs : List Transaction) :
    innerSize txs = (txs.map fun tx => tx.size - 80).sum := by
  induction txs with
  | nil => rfl
  | cons tx rest ih =>
      rw [innerSize, ih, List.map_cons, List.sum_cons]
      rfl

theorem size_eq_figure (tx : Transaction) : tx.size = tx.figure := by
  cases tx with
  | single header payload =>
      rw [size]
      exact payload.size_eq_figure
  | aggregate header inner cosignatures =>
      rw [size, innerSize_eq_sum]
      rfl

/-- A transaction whose size four bytes hold is written just if two bytes hold the
lengths of all counted lists in it, and then what is written is as long as its size
says and begins with it. -/
theorem toBytes_of_size {tx : Transaction} (h : tx.size < UInt32.size) :
    (∀ announced found, tx.toBytes ≠ .error (.sizeMismatch announced found)) ∧
    ((∃ b, tx.toBytes = .ok b) ↔ ∀ l ∈ tx.counted, l.2 ≤ 65535) ∧
    (∀ e, tx.toBytes = .error e ↔ firstLong tx.counted = some e) ∧
    (∀ b, tx.toBytes = .ok b →
      b.length = tx.size ∧ LittleEndian.value (b.take 4) = tx.size) ∧
    tx.size = tx.figure ∧ ∀ part ∈ tx.inner, 80 ≤ part.size := by
  have hfailure := failure_toBytes h
  have hfails : ∀ e, tx.toBytes = .error e ↔ firstLong tx.counted = some e := by
    intro e
    rw [← hfailure, failure_eq_some]
  refine ⟨fun announced found hbytes => ?_, ?_, hfails, fun b hb => ?_, tx.size_eq_figure,
    fun part _ => ?_⟩
  · obtain ⟨l, _, _, heq⟩ := exists_of_firstLong ((hfails _).1 hbytes)
    cases heq
  · rw [← failure_eq_none, hfailure, firstLong_eq_none]
    exact forall₂_congr fun l _ => Nat.lt_succ_iff
  · refine ⟨length_toBytes hb, ?_⟩
    obtain ⟨front, body, hfront, _, rfl⟩ := toBytes_ok.1 hb
    obtain ⟨hlt, rfl⟩ := Header.bytes_ok.1 hfront
    simp only [List.append_assoc]
    rw [List.take_left' (length_bytes32 _), value_bytes32_ofNat hlt]
  · have hsize := headerSize_le_size part
    rw [Layout.headerSize] at hsize
    omega

/-- An aggregate in an aggregate, and in it a deposit of a number of files. -/
def crowded (files : Nat) : Transaction :=
  .aggregate (.new .aggregateBonded .mijinTest 1)
    [.aggregate (.new .aggregateCompleted .publicTest 1)
      [.single (.new .filesDeposit .mijin 1)
        (.filesDeposit (.ofKey (.zero 32) .mijin) (List.replicate files (.zero 32)))] []]
    [⟨.ofKey (.zero 32) .mijinTest, .zero 64⟩]

theorem size_crowded (files : Nat) : (crowded files).size = 344 + 32 * files := by
  simp only [crowded, size, innerSize, Payload.size, List.length_replicate, Layout.aggregate,
    Layout.filesDeposit, Layout.file, Layout.cosignature, Layout.embeddedReduction,
    Layout.headerSize, Layout.embeddedHeaderSize, List.length_singleton, List.length_nil]
  omega

theorem counted_crowded (files : Nat) : (crowded files).counted = [("files", files)] := by
  simp only [crowded, counted, countedList, Payload.counted, List.length_replicate,
    List.append_nil]

theorem toBytes_of_size_crowded :
    (∃ b, (crowded 65535).toBytes = .ok b ∧ b.length = 2097464) ∧
    (crowded 65536).toBytes = .error (.invalid (.manyEntries "files" 65536)) := by
  have hfits : (crowded 65535).size < UInt32.size := by
    rw [size_crowded]
    decide
  have hlong : (crowded 65536).size < UInt32.size := by
    rw [size_crowded]
    decide
  obtain ⟨_, hok, _, hlength, _⟩ := toBytes_of_size hfits
  obtain ⟨_, _, hfails, _⟩ := toBytes_of_size hlong
  rw [counted_crowded] at hok hfails
  obtain ⟨b, hb⟩ := hok.2 fun l hl => by
    cases List.mem_singleton.1 hl
    exact Nat.le_refl 65535
  refine ⟨⟨b, hb, ?_⟩, (hfails _).2 rfl⟩
  rw [(hlength b hb).1, size_crowded]

end Transaction

end DriveChain
