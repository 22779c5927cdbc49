import DriveChain.Proofs.Reader

/-!
# Calls of a reader, one after the other

A reader counts its position beside the bytes that are left to it, and nothing in it
remembers the bytes it began with. That the two keep step is shown for whatever is asked
of it, in whatever order, and whether it comes to something or not: the readers there
are, which a window adds to, are followed from call to call. One call moves the reader
that is called over some of the bytes left to it and no further, and a window lies within
them. So every reader stands in the bytes as a whole where its position says.

What a call comes to is found from the bytes that are left. It is all or nothing: there
is room, and the answer is what the bytes stand for, or there is not, and the reader says
so where it stands. A number of 64 bits is the exception. It is read as two words, each
of which is all or nothing, so where there is room for the first only it is passed and
lost.
-/

namespace DriveChain

variable {α β : Type}

namespace Reader

/-! ## All or nothing -/

/-- At this cursor a reader gives what the next bytes stand for and passes so many of
them, or it lacks bytes and stays. -/
structure Exact (reader : Reader α) (width passed : Nat)
    (stands : List UInt8 → α → Prop) (c : Cursor) : Prop where
  room : width ≤ c.remaining →
    ∃ a, reader c = .ok a (c.skip passed) ∧ stands (c.rest.take width) a
  short : c.remaining < width → reader c = .error (c.lacks width) c

theorem Exact.map {reader : Reader α} {width passed : Nat} {stands : List UInt8 → α → Prop}
    {stands' : List UInt8 → β → Prop} {c : Cursor} {f : α → β}
    (h : Exact reader width passed stands c)
    (hmap : ∀ bytes a, bytes.length = width → stands bytes a → stands' bytes (f a)) :
    Exact (do return f (← reader)) width passed stands' c := by
  refine ⟨fun hroom => ?_, fun hshort => ?_⟩
  · obtain ⟨a, hread, hstands⟩ := h.room hroom
    refine ⟨f a, ?_, hmap _ _ (List.length_take_of_le hroom) hstands⟩
    exact bind_ok.2 ⟨a, _, hread, pure_ok.2 ⟨rfl, rfl⟩⟩
  · have hread := h.short hshort
    simp only [bind, EStateM.bind, hread]

theorem length_take_ne {n : Nat} {c : Cursor} (h : c.remaining < n) :
    (c.rest.take n).length ≠ n := by
  rw [List.length_take]
  unfold Cursor.remaining at h
  omega

theorem octets_exact (n : Nat) (c : Cursor) :
    Exact (octets n) n n (fun bytes a => a.bytes = bytes) c := by
  refine ⟨fun hroom => ?_, fun hshort => dif_neg (length_take_ne hshort)⟩
  have htake : (c.rest.take n).length = n := List.length_take_of_le hroom
  exact ⟨⟨c.rest.take n, htake⟩, dif_pos htake, rfl⟩

theorem number_exact (width : Nat) (c : Cursor) :
    Exact (number width) width width
      (fun bytes n => n = LittleEndian.value bytes ∧ n < 256 ^ width) c := by
  refine (octets_exact width c).map fun bytes a hlen ha => ?_
  rw [ha, ← hlen]
  exact ⟨rfl, LittleEndian.value_lt bytes⟩

theorem word8_exact (c : Cursor) :
    Exact word8 1 1 (fun bytes n => n.toNat = LittleEndian.value bytes) c :=
  (number_exact 1 c).map fun _ _ _ hn => (UInt8.toNat_ofNat_of_lt' hn.2).trans hn.1

theorem word16_exact (c : Cursor) :
    Exact word16 2 2 (fun bytes n => n.toNat = LittleEndian.value bytes) c :=
  (number_exact 2 c).map fun _ _ _ hn => (UInt16.toNat_ofNat_of_lt' hn.2).trans hn.1

theorem word32_exact (c : Cursor) :
    Exact word32 4 4 (fun bytes n => n.toNat = LittleEndian.value bytes) c :=
  (number_exact 4 c).map fun _ _ _ hn => (UInt32.toNat_ofNat_of_lt' hn.2).trans hn.1

theorem peek32_exact (c : Cursor) :
    Exact peek32 4 0 (fun bytes n => n.toNat = LittleEndian.value bytes) c := by
  refine ⟨fun hroom => ?_, fun hshort => ?_⟩
  · obtain ⟨n, hread, hn⟩ := (word32_exact c).room hroom
    refine ⟨n, ?_, hn⟩
    unfold peek32
    rw [hread]
    rfl
  · have hread := (word32_exact c).short hshort
    unfold peek32
    rw [hread]

theorem split_exact (n : Nat) (c : Cursor) :
    Exact (split n) n n (fun bytes window => window = ⟨c.position, bytes⟩) c := by
  refine ⟨fun hroom => ?_, fun hshort => if_neg (length_take_ne hshort)⟩
  have htake : (c.rest.take n).length = n := List.length_take_of_le hroom
  exact ⟨_, if_pos htake, rfl⟩

/-! ## Two words -/

theorem word64_of_room {c : Cursor} (h : 8 ≤ c.remaining) :
    ∃ n, word64 c = .ok n (c.skip 8) ∧ n.toNat = LittleEndian.value (c.rest.take 8) := by
  obtain ⟨low, hlow, hlowValue⟩ := (word32_exact c).room (by omega)
  obtain ⟨high, hhigh, hhighValue⟩ := (word32_exact (c.skip 4)).room (by
    rw [Cursor.remaining_skip]
    omega)
  have hlen : (c.rest.take 4).length = 4 := List.length_take_of_le (by
    unfold Cursor.remaining at h
    omega)
  refine ⟨Words.join low high, ?_, ?_⟩
  · rw [Cursor.skip_skip] at hhigh
    exact bind_ok.2 ⟨low, _, hlow, bind_ok.2 ⟨high, _, hhigh, pure_ok.2 ⟨rfl, rfl⟩⟩⟩
  · have hbytes : c.rest.take (4 + 4) = c.rest.take 4 ++ (c.skip 4).rest.take 4 := List.take_add
    rw [show (8 : Nat) = 4 + 4 from rfl, hbytes, LittleEndian.value_append, hlen, ← hlowValue,
      ← hhighValue, Words.toNat_join]
    rfl

/-- Not even the first word is there. -/
theorem word64_of_no_word {c : Cursor} (h : c.remaining < 4) :
    word64 c = .error (c.lacks 4) c := by
  have hread := (word32_exact c).short h
  simp only [word64, bind, EStateM.bind, hread]

/-- The first word is there and is passed, although no number comes of it. -/
theorem word64_of_one_word {c : Cursor} (h : 4 ≤ c.remaining) (hless : c.remaining < 8) :
    word64 c = .error ((c.skip 4).lacks 4) (c.skip 4) := by
  obtain ⟨low, hlow, _⟩ := (word32_exact c).room h
  have hhigh := (word32_exact (c.skip 4)).short (by
    rw [Cursor.remaining_skip]
    omega)
  simp only [word64, bind, EStateM.bind, hlow, hhigh]

/-! ## Operations -/

/-- What can be asked of a reader. -/
inductive Operation where
  | word8
  | word16
  | word32
  | word64
  | peek32
  | octets (n : Nat)
  | split (n : Nat)
deriving DecidableEq

namespace Operation

/-- What kind of answer it has, if it has one. -/
def Answer : Operation → Type
  | .word8 => UInt8
  | .word16 => UInt16
  | .word32 | .peek32 => UInt32
  | .word64 => UInt64
  | .octets n => Octets n
  | .split _ => Cursor

/-- The reader that carries out an operation. -/
def run : (op : Operation) → Reader op.Answer
  | .word8 => Reader.word8
  | .word16 => Reader.word16
  | .word32 => Reader.word32
  | .word64 => Reader.word64
  | .peek32 => Reader.peek32
  | .octets n => Reader.octets n
  | .split n => Reader.split n

/-- The number of bytes that it looks at. -/
def width : Operation → Nat
  | .word8 => 1
  | .word16 => 2
  | .word32 | .peek32 => 4
  | .word64 => 8
  | .octets n | .split n => n

/-- The number of bytes that it passes. -/
def passed : Operation → Nat
  | .peek32 => 0
  | op => op.width

/-- Which bytes, from which position on, an answer stands for. -/
def Stands (position : Nat) (bytes : List UInt8) : (op : Operation) → op.Answer → Prop
  | .word8, (n : UInt8) => n.toNat = LittleEndian.value bytes
  | .word16, (n : UInt16) => n.toNat = LittleEndian.value bytes
  | .word32, (n : UInt32) | .peek32, (n : UInt32) => n.toNat = LittleEndian.value bytes
  | .word64, (n : UInt64) => n.toNat = LittleEndian.value bytes
  | .octets _, (a : Octets _) => a.bytes = bytes
  | .split _, window => window = Cursor.mk position bytes

/-- An operation other than on two words is all or nothing. -/
theorem run_exact {op : Operation} (hop : op ≠ .word64) (c : Cursor) :
    Exact op.run op.width op.passed (fun bytes a => op.Stands c.position bytes a) c := by
  cases op with
  | word8 => exact word8_exact c
  | word16 => exact word16_exact c
  | word32 => exact word32_exact c
  | word64 => exact absurd rfl hop
  | peek32 => exact peek32_exact c
  | octets n => exact octets_exact n c
  | split n => exact split_exact n c

theorem run_of_room {op : Operation} {c : Cursor} (h : op.width ≤ c.remaining) :
    ∃ a, op.run c = .ok a (c.skip op.passed) ∧
      op.Stands c.position (c.rest.take op.width) a := by
  by_cases hop : op = .word64
  · subst hop
    exact word64_of_room h
  · exact (run_exact hop c).room h

/-- The cursor behind an operation, whether anything came of it or not. -/
def after (op : Operation) (c : Cursor) : Cursor :=
  match op.run c with
  | .ok _ c' => c'
  | .error _ c' => c'

/-- The window that an operation opens. -/
def opened : Operation → Cursor → List Cursor
  | .split n, c =>
    match Reader.split n c with
    | .ok window _ => [window]
    | .error _ _ => []
  | _, _ => []

end Operation

/-! ## Calls -/

/-- An operation, asked of the reader with a number. -/
structure Call where
  reader : Nat
  operation : Operation
deriving DecidableEq

/-- The cursors of all readers after a call. A window that was opened comes last; a
reader that is not there cannot be called. -/
def Call.perform (cursors : List Cursor) (call : Call) : List Cursor :=
  match cursors[call.reader]? with
  | none => cursors
  | some c => cursors.set call.reader (call.operation.after c) ++ call.operation.opened c

/-- The cursors of all readers after some calls, at first of the one reader of the bytes. -/
def cursors (bytes : List UInt8) (calls : List Call) : List Cursor :=
  calls.foldl Call.perform [Cursor.start bytes]

/-! ## Where readers stand -/

end Reader

namespace Cursor

variable {bytes : List UInt8} {c : Cursor}

/-- The bytes left to a cursor stand in the bytes as a whole where its position says. -/
def IsIn (c : Cursor) (bytes : List UInt8) : Prop :=
  ∃ before behind, bytes = before ++ (c.rest ++ behind) ∧ c.position = before.length

theorem isIn_start (bytes : List UInt8) : (start bytes).IsIn bytes :=
  ⟨[], [], (List.append_nil bytes).symm, rfl⟩

theorem IsIn.position_le (h : c.IsIn bytes) : c.position + c.remaining ≤ bytes.length := by
  obtain ⟨before, behind, rfl, hpos⟩ := h
  rw [hpos, List.length_append, List.length_append]
  unfold remaining
  omega

/-- Bytes that are left are found in the whole. -/
theorem IsIn.take_rest (h : c.IsIn bytes) {n : Nat} (hn : n ≤ c.remaining) :
    c.rest.take n = bytes.extract c.position (c.position + n) := by
  obtain ⟨before, behind, rfl, hpos⟩ := h
  rw [List.extract_eq_take_drop, hpos, List.drop_left, Nat.add_sub_cancel_left,
    List.take_append_of_le_length hn]

theorem IsIn.skip (h : c.IsIn bytes) {n : Nat} (hn : n ≤ c.remaining) :
    (c.skip n).IsIn bytes := by
  obtain ⟨before, behind, hbytes, hpos⟩ := h
  refine ⟨before ++ c.rest.take n, behind, ?_, ?_⟩
  · show bytes = before ++ c.rest.take n ++ (c.rest.drop n ++ behind)
    rw [hbytes, List.append_assoc, ← List.append_assoc (c.rest.take n), List.take_append_drop]
  · show c.position + n = (before ++ c.rest.take n).length
    rw [hpos, List.length_append, List.length_take_of_le hn]

theorem IsIn.window (h : c.IsIn bytes) (n : Nat) :
    IsIn ⟨c.position, c.rest.take n⟩ bytes := by
  obtain ⟨before, behind, hbytes, hpos⟩ := h
  refine ⟨before, c.rest.drop n ++ behind, ?_, hpos⟩
  rw [hbytes, ← List.append_assoc (c.rest.take n), List.take_append_drop]

end Cursor

namespace Reader

variable {bytes : List UInt8} {c : Cursor}

namespace Operation

theorem passed_le_width (op : Operation) : op.passed ≤ op.width := by
  cases op with
  | peek32 => exact Nat.zero_le 4
  | word8 | word16 | word32 | word64 | octets n | split n => exact Nat.le_refl _

/-- An operation moves a reader over bytes that are left to it. -/
theorem after_eq_skip (op : Operation) (c : Cursor) :
    ∃ n ≤ c.remaining, op.after c = c.skip n := by
  unfold after
  rcases Nat.lt_or_ge c.remaining op.width with hshort | hroom
  · -- Only a pair of words can fail and have moved the reader.
    by_cases hop : op = .word64
    · subst hop
      rcases Nat.lt_or_ge c.remaining 4 with hnone | hone
      · refine ⟨0, Nat.zero_le _, ?_⟩
        rw [show run .word64 c = _ from word64_of_no_word hnone]
        rfl
      · refine ⟨4, hone, ?_⟩
        rw [show run .word64 c = _ from word64_of_one_word hone hshort]
    · refine ⟨0, Nat.zero_le _, ?_⟩
      rw [(run_exact hop c).short hshort]
      rfl
  · obtain ⟨a, hread, _⟩ := run_of_room hroom
    refine ⟨op.passed, Nat.le_trans op.passed_le_width hroom, ?_⟩
    rw [hread]

theorem isIn_opened {op : Operation} {window : Cursor} (h : c.IsIn bytes)
    (hopened : window ∈ op.opened c) : window.IsIn bytes := by
  unfold opened at hopened
  split at hopened
  · next n =>
      split at hopened
      · next hsplit =>
          obtain ⟨front, rfl, hwindow, hpass⟩ := split_ok.1 hsplit
          obtain rfl := List.mem_singleton.1 hopened
          rw [hwindow]
          have hfront : front = c.rest.take front.length := by
            rw [hpass.1, List.take_left]
          rw [hfront]
          exact h.window _
      · cases hopened
  · cases hopened

end Operation

/-- One call leaves every reader standing in the bytes. -/
theorem isIn_perform {readers : List Cursor} (h : ∀ c ∈ readers, c.IsIn bytes) (call : Call) :
    ∀ c ∈ call.perform readers, c.IsIn bytes := by
  intro c hc
  unfold Call.perform at hc
  split at hc
  · exact h c hc
  · next called hcalled =>
      have hin := h called (List.mem_of_getElem? hcalled)
      rcases List.mem_append.1 hc with hset | hopened
      · rcases List.mem_or_eq_of_mem_set hset with hold | rfl
        · exact h c hold
        · obtain ⟨n, hn, hafter⟩ := call.operation.after_eq_skip called
          rw [hafter]
          exact hin.skip hn
      · exact Operation.isIn_opened hin hopened

/-- So do any calls, in any order and of any readers. -/
theorem isIn_performAll {readers : List Cursor} (h : ∀ c ∈ readers, c.IsIn bytes)
    (calls : List Call) : ∀ c ∈ calls.foldl Call.perform readers, c.IsIn bytes := by
  induction calls generalizing readers with
  | nil => exact h
  | cons call calls ih => exact ih (isIn_perform h call)

theorem isIn_of_mem_cursors {calls : List Call} (hc : c ∈ cursors bytes calls) :
    c.IsIn bytes := by
  refine isIn_performAll (fun c hstart => ?_) calls c hc
  rw [List.mem_singleton.1 hstart]
  exact Cursor.isIn_start bytes

/-- Whatever has been asked of whichever readers, the bytes left to a reader are those from
its position on, and what it is asked next is all or nothing: there is room and it gives
what the bytes stand for, or it lacks them and stays. Only two words are read one by one,
and the first is passed where the second is lacking. -/
theorem calls_exact {calls : List Call} (hc : c ∈ cursors bytes calls) (op : Operation) :
    c.position + c.remaining ≤ bytes.length ∧
    c.rest = bytes.extract c.position (c.position + c.remaining) ∧
    (op.width ≤ c.remaining → ∃ a, op.run c = .ok a (c.skip op.passed) ∧
      op.Stands c.position (bytes.extract c.position (c.position + op.width)) a) ∧
    (c.remaining < op.width → op ≠ .word64 →
      op.run c = .error (.truncated c.position op.width c.remaining) c) ∧
    (c.remaining < 4 → word64 c = .error (.truncated c.position 4 c.remaining) c) ∧
    (4 ≤ c.remaining → c.remaining < 8 →
      word64 c = .error (.truncated (c.position + 4) 4 (c.remaining - 4)) (c.skip 4)) := by
  have hin := isIn_of_mem_cursors hc
  refine ⟨hin.position_le, ?_, fun hroom => ?_, fun hshort hop => ?_, fun hnone => ?_,
    fun hone hless => ?_⟩
  · rw [← hin.take_rest (Nat.le_refl _)]
    exact (List.take_length).symm
  · rw [← hin.take_rest hroom]
    exact Operation.run_of_room hroom
  · exact (Operation.run_exact hop c).short hshort
  · exact word64_of_no_word hnone
  · rw [← Cursor.remaining_skip]
    exact word64_of_one_word hone hless

/-- A window of six bytes, of which the first four have been read: two are left, at their
place in the whole, and they are neither lost nor passed where more are asked for. -/
theorem calls_exact_in_window :
    (⟨4, [5, 6]⟩ : Cursor) ∈ cursors [1, 2, 3, 4, 5, 6, 7] [⟨0, .split 6⟩, ⟨1, .word32⟩] ∧
    (∃ n, word16 ⟨4, [5, 6]⟩ = .ok n ⟨6, []⟩ ∧ n.toNat = 0x0605) ∧
    (∃ window, split 1 ⟨4, [5, 6]⟩ = .ok window ⟨5, [6]⟩ ∧ window = ⟨4, [5]⟩) ∧
    octets 32 ⟨4, [5, 6]⟩ = .error (.truncated 4 32 2) ⟨4, [5, 6]⟩ ∧
    word64 ⟨4, [5, 6]⟩ = .error (.truncated 4 4 2) ⟨4, [5, 6]⟩ := by
  have hc : (⟨4, [5, 6]⟩ : Cursor) ∈
      cursors [1, 2, 3, 4, 5, 6, 7] [⟨0, .split 6⟩, ⟨1, .word32⟩] := by decide
  obtain ⟨_, _, hword, _, hnone, _⟩ := calls_exact hc .word16
  obtain ⟨_, _, hsplit, _⟩ := calls_exact hc (.split 1)
  obtain ⟨_, _, _, hkey, _⟩ := calls_exact hc (.octets 32)
  exact ⟨hc, hword (by decide), hsplit (by decide), hkey (by decide) (by decide),
    hnone (by decide)⟩

/-- It is not all or nothing with every operation: of a number of 64 bits the first word is
passed although the second is not there. -/
theorem word64_not_exact :
    Cursor.start [1, 2, 3, 4, 5] ∈ cursors [1, 2, 3, 4, 5] [] ∧
    Operation.run .word64 (.start [1, 2, 3, 4, 5]) = .error (.truncated 4 4 1) ⟨4, [5]⟩ ∧
    ¬ ∀ (bytes : List UInt8) (calls : List Call) (c : Cursor) (op : Operation),
      c ∈ cursors bytes calls → c.remaining < op.width →
        op.run c = .error (.truncated c.position op.width c.remaining) c := by
  have hstart : Cursor.start [1, 2, 3, 4, 5] ∈ cursors [1, 2, 3, 4, 5] [] := by decide
  have hhalf : Operation.run .word64 (.start [1, 2, 3, 4, 5]) =
      .error (.truncated 4 4 1) ⟨4, [5]⟩ := word64_of_one_word (by decide) (by decide)
  refine ⟨hstart, hhalf, fun h => ?_⟩
  have hwhole := h _ _ _ .word64 hstart (by decide)
  rw [hhalf] at hwhole
  cases hwhole

end Reader

end DriveChain
