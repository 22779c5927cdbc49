import DriveChain.Proofs.PayloadBytes
import DriveChain.Transaction.Field
import Mathlib.Algebra.Ring.Nat

/-!
# Values in a row are read back

Nothing stands between two values that are written one after the other, and nothing says
of which kinds they are. What keeps them apart is that a value takes as many bytes as its
kind says, so that whoever knows the kinds knows where each value ends. One step of the
reader therefore accepts just what one step of the writer adds, and by induction on the
kinds so do many.

The one value that is not always written is a count. It adds nothing if it does not fit,
so a row with such counts in it comes to the same bytes as the row without them.
-/

namespace DriveChain

open Reader

namespace Field

/-- Whether a value can be written. -/
def fits : Field → Bool
  | .count _ n => n ≤ 65535
  | _ => true

/-- The bytes that a value adds to those that have been written. -/
def added (field : Field) : List UInt8 :=
  match field.bytes with
  | .ok bytes => bytes
  | .error _ => []

variable {field : Field} {fields : List Field}

/-! ## One value -/

theorem added_count (name : String) (n : UInt16) :
    added (.count name n.toNat) = bytes16 n := by
  have hbytes : bytes (.count name n.toNat) = .ok (bytes16 n) := by
    rw [bytes, wireCount_ok.2 rfl]
  rw [added, hbytes]

theorem added_word64 (n : UInt64) : added (.word64 n) = bytes64 n :=
  (Words.bytes64_eq n).symm

theorem bytes_of_fits (h : field.fits = true) : field.bytes = .ok field.added := by
  cases field with
  | count name n =>
      have hn : n < UInt16.size := Nat.lt_succ_of_le (of_decide_eq_true h)
      rw [← UInt16.toNat_ofNat_of_lt' hn, added_count, bytes, wireCount_ok.2 rfl]
  | word8 _ | word16 _ | word32 _ | word64 _ | octets _ => rfl

theorem bytes_of_not_fits {name : String} {n : Nat} (h : 65535 < n) :
    bytes (.count name n) = .error (.invalid (.manyEntries name n)) := by
  have hsize : ¬ n < UInt16.size := Nat.not_lt_of_le h
  rw [bytes, wireCount, if_neg hsize]

theorem added_of_not_fits (h : field.fits = false) : field.added = [] := by
  cases field with
  | count name n =>
      have hn : 65535 < n := Nat.lt_of_not_le (of_decide_eq_false h)
      rw [added, bytes_of_not_fits hn]
  | word8 _ | word16 _ | word32 _ | word64 _ | octets _ => cases h

theorem length_added (h : field.fits = true) : field.added.length = field.kind.width := by
  cases field with
  | word8 n => rfl
  | word16 n => exact length_bytes16 n
  | word32 n => exact length_bytes32 n
  | word64 n =>
      rw [added_word64]
      exact length_bytes64 n
  | octets bytes => rfl
  | count name n =>
      have hn : n < UInt16.size := Nat.lt_succ_of_le (of_decide_eq_true h)
      rw [← UInt16.toNat_ofNat_of_lt' hn, added_count]
      exact length_bytes16 _

/-- The values of a kind are made from what a reader of octets or numbers gives. -/
theorem made_ok {α : Type} {reader : Reader α} {form : α → List UInt8} {kind : Kind}
    (make : α → Field) (hread : ∀ c c' a, reader c = .ok a c' ↔ c.Passes (form a) c')
    (hmake : ∀ a, (make a).kind = kind ∧ (make a).fits = true ∧ (make a).added = form a)
    (hmade : ∀ field : Field, field.kind = kind → field.fits = true → ∃ a, make a = field)
    {c c' : Cursor} :
    (do return make (← reader) : Reader Field) c = .ok field c' ↔
      field.kind = kind ∧ field.fits = true ∧ c.Passes field.added c' := by
  simp only [bind_ok, hread, pure_ok]
  refine ⟨fun h => ?_, fun h => ?_⟩
  · obtain ⟨a, _, hpass, rfl, rfl⟩ := h
    obtain ⟨hkind, hfits, hadded⟩ := hmake a
    rw [hadded]
    exact ⟨hkind, hfits, hpass⟩
  · obtain ⟨hkind, hfits, hpass⟩ := h
    obtain ⟨a, rfl⟩ := hmade field hkind hfits
    rw [(hmake a).2.2] at hpass
    exact ⟨a, c', hpass, rfl, rfl⟩

/-- A reader of some kind gives just the values of this kind, from the bytes that they add. -/
theorem read_ok {kind : Kind} {c c' : Cursor} :
    kind.read c = .ok field c' ↔
      field.kind = kind ∧ field.fits = true ∧ c.Passes field.added c' := by
  cases kind with
  | word8 =>
      refine made_ok .word8 (fun _ _ _ => word8_ok) (fun n => ⟨rfl, rfl, rfl⟩)
        fun field hkind _ => ?_
      cases field <;> cases hkind
      exact ⟨_, rfl⟩
  | word16 =>
      refine made_ok .word16 (fun _ _ _ => word16_ok) (fun n => ⟨rfl, rfl, rfl⟩)
        fun field hkind _ => ?_
      cases field <;> cases hkind
      exact ⟨_, rfl⟩
  | word32 =>
      refine made_ok .word32 (fun _ _ _ => word32_ok) (fun n => ⟨rfl, rfl, rfl⟩)
        fun field hkind _ => ?_
      cases field <;> cases hkind
      exact ⟨_, rfl⟩
  | word64 =>
      refine made_ok .word64 (fun _ _ _ => word64_ok) (fun n => ⟨rfl, rfl, added_word64 n⟩)
        fun field hkind _ => ?_
      cases field <;> cases hkind
      exact ⟨_, rfl⟩
  | octets length =>
      refine made_ok (fun a : Octets length => .octets a.bytes) (fun _ _ _ => octets_ok)
        (fun a => ⟨?_, rfl, rfl⟩) fun field hkind _ => ?_
      · rw [kind, a.length_bytes]
      · cases field <;> cases hkind
        exact ⟨⟨_, rfl⟩, rfl⟩
  | count name =>
      refine made_ok (fun n : UInt16 => .count name n.toNat) (fun _ _ _ => word16_ok)
        (fun n => ⟨rfl, decide_eq_true (Nat.le_of_lt_succ n.toNat_lt), added_count name n⟩)
        fun field hkind hfits => ?_
      cases field <;> cases hkind
      next n =>
        have hn : n < UInt16.size := Nat.lt_succ_of_le (of_decide_eq_true hfits)
        exact ⟨UInt16.ofNat n, by rw [UInt16.toNat_ofNat_of_lt' hn]⟩

/-! ## Values in a row -/

/-- Readers in a row give just the values of their kinds, from the bytes that these add. -/
theorem readAll_ok {kinds : List Kind} {c c' : Cursor} :
    readAll kinds c = .ok fields c' ↔
      fields.map kind = kinds ∧ (∀ field ∈ fields, field.fits = true) ∧
        c.Passes (fields.flatMap added) c' := by
  induction kinds generalizing c c' fields with
  | nil =>
      rw [readAll, pure_ok, List.map_eq_nil_iff]
      refine ⟨fun h => ?_, fun h => ?_⟩
      · obtain ⟨rfl, rfl⟩ := h
        exact ⟨rfl, fun _ hnone => (nomatch hnone), Cursor.passes_nil.2 rfl⟩
      · obtain ⟨rfl, _, hpass⟩ := h
        exact ⟨rfl, (Cursor.passes_nil.1 hpass).symm⟩
  | cons kind kinds ih =>
      simp only [readAll, bind_ok, read_ok, ih, pure_ok]
      refine ⟨fun h => ?_, fun h => ?_⟩
      · obtain ⟨field, c₁, ⟨hkind, hfits, hfirst⟩, rest, c₂, ⟨hkinds, hall, hrest⟩, rfl, rfl⟩ := h
        rw [List.map_cons, hkind, hkinds, List.forall_mem_cons, List.flatMap_cons]
        exact ⟨rfl, ⟨hfits, hall⟩, Cursor.passes_append.2 ⟨c₁, hfirst, hrest⟩⟩
      · obtain ⟨hkinds, hall, hpass⟩ := h
        obtain ⟨field, rest, rfl, rfl, rfl⟩ := List.map_eq_cons_iff.1 hkinds
        rw [List.forall_mem_cons] at hall
        rw [List.flatMap_cons, Cursor.passes_append] at hpass
        obtain ⟨c₁, hfirst, hrest⟩ := hpass
        exact ⟨field, c₁, ⟨rfl, hall.1, hfirst⟩, rest, c', ⟨rfl, hall.2, hrest⟩, rfl, rfl⟩

theorem write_fst (written : List UInt8) (field : Field) :
    (write written field).1 = written ++ field.added := by
  unfold write added
  cases field.bytes with
  | ok more => rfl
  | error e => exact (List.append_nil written).symm

theorem writeAll_eq (fields : List Field) : writeAll fields = fields.flatMap added := by
  have hrun : ∀ (fields : List Field) (written : List UInt8),
      fields.foldl (fun written field => (write written field).1) written =
        written ++ fields.flatMap added := by
    intro fields
    induction fields with
    | nil => exact fun written => (List.append_nil written).symm
    | cons field fields ih =>
        intro written
        rw [List.foldl_cons, write_fst, ih, List.flatMap_cons, List.append_assoc]
  exact hrun fields []

/-- What does not fit leaves no trace. -/
theorem writeAll_filter (fields : List Field) :
    writeAll (fields.filter fits) = writeAll fields := by
  rw [writeAll_eq, writeAll_eq]
  induction fields with
  | nil => rfl
  | cons field fields ih =>
      cases hfits : field.fits with
      | true => rw [List.filter_cons_of_pos hfits, List.flatMap_cons, List.flatMap_cons, ih]
      | false =>
          have hno : ¬ field.fits = true := fun h => nomatch hfits.symm.trans h
          rw [List.filter_cons_of_neg hno, List.flatMap_cons, ih, added_of_not_fits hfits,
            List.nil_append]

theorem length_flatMap_added (h : ∀ field ∈ fields, field.fits = true) :
    (fields.flatMap added).length = (fields.map fun field => field.kind.width).sum := by
  induction fields with
  | nil => rfl
  | cons field fields ih =>
      rw [List.forall_mem_cons] at h
      rw [List.flatMap_cons, List.length_append, length_added h.1, ih h.2, List.map_cons,
        List.sum_cons]

end Field

theorem finish_eq_ok {announced : Nat} {written bytes : List UInt8} :
    finish announced written = .ok bytes ↔ announced = written.length ∧ bytes = written := by
  unfold finish
  split
  · next heq =>
      rw [Except.ok.injEq, heq]
      exact ⟨fun h => ⟨rfl, h.symm⟩, fun h => h.2.symm⟩
  · next hne =>
      refine ⟨fun h => (nomatch h), fun h => absurd h.1.symm hne⟩

namespace Field

/-- Values that are written one after the other are read back by their kinds, up to the
end, from as many bytes as the kinds say. A count that does not fit is refused and changes
nothing, so the others are read as if there had been no attempt to write it. -/
theorem readAll_writeAll (fields : List Field) :
    (∃ c, readAll ((fields.filter fits).map kind) (.start (writeAll fields)) =
      .ok (fields.filter fits) c ∧ expectEnd c = .ok () c) ∧
    (writeAll fields).length = ((fields.filter fits).map fun field => field.kind.width).sum ∧
    (∀ announced bytes, finish announced (writeAll fields) = .ok bytes ↔
      announced = (writeAll fields).length ∧ bytes = writeAll fields) ∧
    writeAll fields = writeAll (fields.filter fits) ∧
    (∀ written field, field.fits = true →
      write written field = (written ++ field.added, .ok ())) ∧
    (∀ written name n, 65535 < n →
      write written (.count name n) = (written, .error (.invalid (.manyEntries name n)))) ∧
    ∀ n, bytes (.word64 n) = .ok (bytes32 (Words.low n) ++ bytes32 (Words.high n)) ∧
      bytes32 (Words.low n) ++ bytes32 (Words.high n) = LittleEndian.bytes 8 n.toNat := by
  have hfits : ∀ field ∈ fields.filter fits, field.fits = true :=
    fun field hfield => (List.mem_filter.1 hfield).2
  have hbytes : writeAll fields = (fields.filter fits).flatMap added := by
    rw [← writeAll_filter, writeAll_eq]
  refine ⟨?_, ?_, fun _ _ => finish_eq_ok, (writeAll_filter fields).symm,
    fun written field hfield => ?_, fun written name n hn => ?_, fun n => ⟨rfl, ?_⟩⟩
  · rw [hbytes]
    exact ⟨_, readAll_ok.2 ⟨rfl, hfits, Cursor.passes_rest 0 _⟩, expectEnd_ok.2 ⟨rfl, rfl⟩⟩
  · rw [hbytes, length_flatMap_added hfits]
  · rw [write, bytes_of_fits hfield]
  · rw [write, bytes_of_not_fits hn]
  · exact (Words.bytes64_eq n).symm

/-- The count of a long list, refused between a byte and a number. -/
def interrupted : List Field :=
  [.word8 1, .count "files" 70000, .word64 0x200000001, .count "files" 3, .octets [9, 9, 9]]

theorem readAll_writeAll_interrupted :
    writeAll interrupted = [1, 1, 0, 0, 0, 2, 0, 0, 0, 3, 0, 9, 9, 9] ∧
    (∃ c, readAll [.word8, .word64, .count "files", .octets 3] (.start (writeAll interrupted)) =
        .ok [.word8 1, .word64 0x200000001, .count "files" 3, .octets [9, 9, 9]] c ∧
      expectEnd c = .ok () c) ∧
    finish 14 (writeAll interrupted) = .ok (writeAll interrupted) ∧
    write [1] (.count "files" 70000) =
      ([1], .error (.invalid (.manyEntries "files" 70000))) ∧
    write [1] (.word8 2) = ([1, 2], .ok ()) := by
  obtain ⟨hread, hlength, hfinish, _, hwrite, hlong, _⟩ := readAll_writeAll interrupted
  refine ⟨by decide, hread, (hfinish 14 _).2 ⟨?_, rfl⟩, hlong [1] "files" 70000 (by decide),
    hwrite [1] (.word8 2) rfl⟩
  rw [hlength]
  rfl

end Field

end DriveChain
