import DriveChain.Proofs.Octets
import DriveChain.Transaction.Cursor

/-!
# A reader accepts exactly what is written

A *form* says which bytes stand for which values. A reader accepts a form if it
gives a value and moves the cursor just when the bytes it passes stand for the
value in that form. That is one statement for both directions: what is written
is read back, and what is read was written so, with no byte to spare.

The primitive readers accept the forms of numbers and octets, and sequencing
joins forms end to end. So what a record's reader accepts is found by rewriting
along its definition: every step gives the bytes it passes and the cursor behind
them. The two loops are dealt with once and for all here. The counted one
accepts so many values one after the other; the open one accepts any number of
them, provided each takes at least a byte, and stops only where the bytes end.
-/

namespace DriveChain

variable {α β : Type}

/-! ## Cursors and forms -/

/-- The second cursor is reached from the first by passing these bytes. -/
def Cursor.Passes (c : Cursor) (bytes : List UInt8) (c' : Cursor) : Prop :=
  c.rest = bytes ++ c'.rest ∧ c'.position = c.position + bytes.length

namespace Cursor

theorem eq_of_fields {c c' : Cursor} (hpos : c'.position = c.position)
    (hrest : c'.rest = c.rest) : c' = c := by
  cases c
  cases c'
  cases hpos
  cases hrest
  rfl

theorem passes_nil {c c' : Cursor} : c.Passes [] c' ↔ c' = c := by
  refine ⟨fun h => ?_, fun h => ?_⟩
  · obtain ⟨hrest, hpos⟩ := h
    exact eq_of_fields hpos hrest.symm
  · subst h
    exact ⟨rfl, rfl⟩

theorem passes_append {c c'' : Cursor} {x y : List UInt8} :
    c.Passes (x ++ y) c'' ↔ ∃ c', c.Passes x c' ∧ c'.Passes y c'' := by
  refine ⟨fun h => ?_, fun h => ?_⟩
  · obtain ⟨hrest, hpos⟩ := h
    refine ⟨⟨c.position + x.length, y ++ c''.rest⟩, ⟨?_, rfl⟩, rfl, ?_⟩
    · rw [hrest, List.append_assoc]
    · rw [hpos, List.length_append, Nat.add_assoc]
  · obtain ⟨c', ⟨hrest, hpos⟩, hrest', hpos'⟩ := h
    refine ⟨?_, ?_⟩
    · rw [hrest, hrest', List.append_assoc]
    · rw [hpos', hpos, List.length_append, Nat.add_assoc]

theorem rest_of_passes {c c' : Cursor} {bytes : List UInt8} (h : c.Passes bytes c')
    (hend : c'.rest = []) : c.rest = bytes := by
  have hrest := h.1
  rw [hend, List.append_nil] at hrest
  exact hrest

theorem Passes.eq_skip {c c' : Cursor} {bytes : List UInt8} (h : c.Passes bytes c') :
    c' = c.skip bytes.length := by
  obtain ⟨hrest, hpos⟩ := h
  refine eq_of_fields hpos ?_
  show c'.rest = c.rest.drop bytes.length
  rw [hrest, List.drop_left]

theorem Passes.remaining_eq {c c' : Cursor} {bytes : List UInt8} (h : c.Passes bytes c') :
    c.remaining = bytes.length + c'.remaining := by
  unfold remaining
  rw [h.1, List.length_append]

theorem skip_skip (c : Cursor) (m n : Nat) : (c.skip m).skip n = c.skip (m + n) :=
  (eq_of_fields (Nat.add_assoc _ _ _).symm List.drop_drop.symm).symm

theorem remaining_skip (c : Cursor) (n : Nat) : (c.skip n).remaining = c.remaining - n :=
  List.length_drop

/-- The bytes of a cursor lead to its end. -/
theorem passes_rest (position : Nat) (bytes : List UInt8) :
    Passes ⟨position, bytes⟩ bytes ⟨position + bytes.length, []⟩ :=
  ⟨(List.append_nil _).symm, rfl⟩

end Cursor

/-- Which bytes stand for which values. -/
abbrev Form (α : Type) := α → List UInt8 → Prop

/-- Values one after the other. -/
inductive Form.Each (form : Form α) : Form (List α)
  | nil : Each form [] []
  | cons {a : α} {as : List α} {x y : List UInt8} :
      form a x → Each form as y → Each form (a :: as) (x ++ y)

namespace Form

theorem each_nil {form : Form α} {bytes : List UInt8} :
    form.Each [] bytes ↔ bytes = [] := by
  refine ⟨fun h => ?_, fun h => ?_⟩
  · cases h
    rfl
  · subst h
    exact .nil

theorem each_cons {form : Form α} {a : α} {as : List α} {bytes : List UInt8} :
    form.Each (a :: as) bytes ↔
      ∃ x y, form a x ∧ form.Each as y ∧ bytes = x ++ y := by
  refine ⟨fun h => ?_, fun h => ?_⟩
  · cases h with
    | cons ha has => exact ⟨_, _, ha, has, rfl⟩
  · obtain ⟨x, y, ha, has, rfl⟩ := h
    exact .cons ha has

/-- The values with a property, in the bytes that a function writes. -/
def written (P : α → Prop) (write : α → List UInt8) : Form α :=
  fun a bytes => P a ∧ bytes = write a

/-- Where every value of a kind has one form, so has every list of them. -/
theorem each_written {P : α → Prop} {write : α → List UInt8} {as : List α}
    {bytes : List UInt8} :
    (written P write).Each as bytes ↔
      (∀ a ∈ as, P a) ∧ bytes = as.flatMap write := by
  induction as generalizing bytes with
  | nil => simp [each_nil]
  | cons a as ih =>
      rw [each_cons, List.flatMap_cons, List.forall_mem_cons]
      refine ⟨fun h => ?_, fun h => ?_⟩
      · obtain ⟨x, y, ⟨ha, rfl⟩, has, rfl⟩ := h
        obtain ⟨hall, rfl⟩ := ih.1 has
        exact ⟨⟨ha, hall⟩, rfl⟩
      · obtain ⟨⟨ha, hall⟩, rfl⟩ := h
        exact ⟨_, _, ⟨ha, rfl⟩, ih.2 ⟨hall, rfl⟩, rfl⟩

end Form

namespace Reader

/-- The reader gives just the values that the bytes it passes stand for. -/
def Accepts (reader : Reader α) (form : Form α) : Prop :=
  ∀ (c c' : Cursor) (a : α),
    reader c = .ok a c' ↔ ∃ bytes, form a bytes ∧ c.Passes bytes c'

/-! ## Steps of a reader -/

theorem bind_ok {reader : Reader α} {next : α → Reader β} {c c'' : Cursor} {b : β} :
    (reader >>= next) c = .ok b c'' ↔
      ∃ a c', reader c = .ok a c' ∧ next a c' = .ok b c'' := by
  simp only [bind, EStateM.bind]
  cases reader c with
  | ok a c' =>
      refine ⟨fun h => ?_, fun h => ?_⟩
      · exact ⟨a, c', rfl, h⟩
      · obtain ⟨_, _, heq, h⟩ := h
        cases heq
        exact h
  | error e c' => simp

theorem pure_ok {a b : α} {c c' : Cursor} :
    (pure a : Reader α) c = .ok b c' ↔ a = b ∧ c = c' := by
  show EStateM.Result.ok a c = _ ↔ _
  simp

theorem throw_ok {e : TransactionError} {b : α} {c c' : Cursor} :
    (throw e : Reader α) c = .ok b c' ↔ False := by
  show EStateM.Result.error e c = _ ↔ _
  simp

theorem get_ok {a c c' : Cursor} :
    (get : Reader Cursor) c = .ok a c' ↔ c = a ∧ c = c' := by
  show EStateM.Result.ok c c = _ ↔ _
  simp

theorem run_ok {reader : Reader α} {bytes : List UInt8} {a : α} :
    run reader bytes = .ok a ↔ ∃ c, reader (Cursor.start bytes) = .ok a c := by
  unfold run
  cases reader (Cursor.start bytes) with
  | ok b c => simp
  | error e c => simp

theorem octets_ok {n : Nat} {c c' : Cursor} {a : Octets n} :
    octets n c = .ok a c' ↔ c.Passes a.bytes c' := by
  unfold octets
  refine ⟨fun h => ?_, fun h => ?_⟩
  · split at h
    · next hlen =>
        cases h
        refine ⟨(List.take_append_drop n c.rest).symm, ?_⟩
        show c.position + n = c.position + (c.rest.take n).length
        rw [hlen]
    · cases h
  · obtain ⟨hrest, hpos⟩ := h
    have hlen := a.length_bytes
    have htake : c.rest.take n = a.bytes := by
      rw [hrest, List.take_left' hlen]
    have hdrop : c.rest.drop n = c'.rest := by
      rw [hrest, List.drop_left' hlen]
    have hskip : c.skip n = c' :=
      Cursor.eq_of_fields (by rw [hpos, hlen]; rfl) hdrop
    have ha : (⟨c.rest.take n, by rw [htake, hlen]⟩ : Octets n) = a :=
      Octets.ext htake
    rw [dif_pos (by rw [htake, hlen]), hskip, ha]

theorem octets_of_room {n : Nat} {c : Cursor} (h : n ≤ c.remaining) :
    ∃ a, octets n c = .ok a (c.skip n) := by
  have htake : (c.rest.take n).length = n := List.length_take_of_le h
  exact ⟨⟨c.rest.take n, htake⟩, dif_pos htake⟩

theorem number_ok {width n : Nat} {c c' : Cursor} :
    number width c = .ok n c' ↔
      ∃ bytes : List UInt8, bytes.length = width ∧ LittleEndian.value bytes = n ∧
        c.Passes bytes c' := by
  simp only [number, bind_ok, octets_ok, pure_ok]
  refine ⟨fun h => ?_, fun h => ?_⟩
  · obtain ⟨a, c₁, hpass, rfl, rfl⟩ := h
    exact ⟨a.bytes, a.length_bytes, rfl, hpass⟩
  · obtain ⟨bytes, hlen, rfl, hpass⟩ := h
    exact ⟨⟨bytes, hlen⟩, c', hpass, rfl, rfl⟩

theorem word8_ok {n : UInt8} {c c' : Cursor} :
    word8 c = .ok n c' ↔ c.Passes [n] c' := by
  simp only [word8, bind_ok, number_ok, pure_ok]
  refine ⟨fun h => ?_, fun hpass => ?_⟩
  · obtain ⟨_, c₁, ⟨bytes, hlen, rfl, hpass⟩, rfl, rfl⟩ := h
    obtain ⟨b, rfl⟩ := List.length_eq_one_iff.1 hlen
    have hb : UInt8.ofNat (LittleEndian.value [b]) = b := by
      rw [LittleEndian.value, LittleEndian.value, Nat.mul_zero, Nat.add_zero,
        UInt8.ofNat_toNat]
    rw [hb]
    exact hpass
  · refine ⟨n.toNat, c', ⟨[n], rfl, ?_, hpass⟩, UInt8.ofNat_toNat, rfl⟩
    rw [LittleEndian.value, LittleEndian.value, Nat.mul_zero, Nat.add_zero]

theorem word16_ok {n : UInt16} {c c' : Cursor} :
    word16 c = .ok n c' ↔ c.Passes (bytes16 n) c' := by
  simp only [word16, bind_ok, number_ok, pure_ok]
  refine ⟨fun h => ?_, fun hpass => ?_⟩
  · obtain ⟨_, c₁, ⟨bytes, hlen, rfl, hpass⟩, rfl, rfl⟩ := h
    rw [bytes16_value hlen]
    exact hpass
  · exact ⟨_, c', ⟨_, length_bytes16 n, rfl, hpass⟩, value_bytes16 n, rfl⟩

theorem word32_ok {n : UInt32} {c c' : Cursor} :
    word32 c = .ok n c' ↔ c.Passes (bytes32 n) c' := by
  simp only [word32, bind_ok, number_ok, pure_ok]
  refine ⟨fun h => ?_, fun hpass => ?_⟩
  · obtain ⟨_, c₁, ⟨bytes, hlen, rfl, hpass⟩, rfl, rfl⟩ := h
    rw [bytes32_value hlen]
    exact hpass
  · exact ⟨_, c', ⟨_, length_bytes32 n, rfl, hpass⟩, value_bytes32 n, rfl⟩

theorem word64_ok {n : UInt64} {c c' : Cursor} :
    word64 c = .ok n c' ↔ c.Passes (bytes64 n) c' := by
  simp only [word64, bind_ok, word32_ok, pure_ok]
  refine ⟨fun h => ?_, fun h => ?_⟩
  · obtain ⟨low, c₁, hlow, high, c₂, hhigh, rfl, rfl⟩ := h
    rw [Words.bytes64_eq, Words.low_join, Words.high_join, Cursor.passes_append]
    exact ⟨c₁, hlow, hhigh⟩
  · rw [Words.bytes64_eq, Cursor.passes_append] at h
    obtain ⟨c₁, hlow, hhigh⟩ := h
    exact ⟨_, c₁, hlow, _, c', hhigh, Words.join_low_high n, rfl⟩

theorem peek32_ok {n : UInt32} {c c' : Cursor} :
    peek32 c = .ok n c' ↔ c = c' ∧ ∃ c₁, c.Passes (bytes32 n) c₁ := by
  have hword : ∀ m c₁, word32 c = .ok m c₁ ↔ c.Passes (bytes32 m) c₁ :=
    fun _ _ => word32_ok
  unfold peek32
  cases hw : word32 c with
  | ok m c₁ =>
      have hm := (hword m c₁).1 hw
      simp only [EStateM.Result.ok.injEq]
      refine ⟨fun h => ?_, fun h => ?_⟩
      · obtain ⟨rfl, rfl⟩ := h
        exact ⟨rfl, c₁, hm⟩
      · obtain ⟨rfl, c₂, hn⟩ := h
        have hnm := (hword n c₂).2 hn
        rw [hw] at hnm
        cases hnm
        exact ⟨rfl, rfl⟩
  | error e c₁ =>
      refine ⟨fun h => ?_, fun h => ?_⟩
      · cases h
      · obtain ⟨rfl, c₂, hn⟩ := h
        have hnm := (hword n c₂).2 hn
        rw [hw] at hnm
        cases hnm

theorem split_ok {n : Nat} {c c' inner : Cursor} :
    split n c = .ok inner c' ↔
      ∃ front : List UInt8, front.length = n ∧ inner = ⟨c.position, front⟩ ∧
        c.Passes front c' := by
  unfold split
  simp only []
  refine ⟨fun h => ?_, fun h => ?_⟩
  · split at h
    · next hlen =>
        cases h
        refine ⟨c.rest.take n, hlen, rfl, (List.take_append_drop n c.rest).symm, ?_⟩
        show c.position + n = c.position + (c.rest.take n).length
        rw [hlen]
    · cases h
  · obtain ⟨front, rfl, rfl, hrest, hpos⟩ := h
    have htake : c.rest.take front.length = front := by
      rw [hrest, List.take_left]
    have hdrop : c.rest.drop front.length = c'.rest := by
      rw [hrest, List.drop_left]
    have hskip : c.skip front.length = c' :=
      Cursor.eq_of_fields (by rw [hpos]; rfl) hdrop
    rw [htake, if_pos rfl, hskip]

theorem on_ok {inner c c' : Cursor} {reader : Reader α} {a : α} :
    on inner reader c = .ok a c' ↔ c = c' ∧ ∃ c₁, reader inner = .ok a c₁ := by
  unfold on
  cases reader inner with
  | ok b c₁ =>
      simp only [EStateM.Result.ok.injEq]
      refine ⟨fun h => ?_, fun h => ?_⟩
      · obtain ⟨rfl, rfl⟩ := h
        exact ⟨rfl, c₁, rfl, rfl⟩
      · obtain ⟨rfl, _, rfl, _⟩ := h
        exact ⟨rfl, rfl⟩
  | error e c₁ => simp

theorem expectEnd_ok {u : Unit} {c c' : Cursor} :
    expectEnd c = .ok u c' ↔ c = c' ∧ c.rest = [] := by
  unfold expectEnd
  cases hrest : c.rest with
  | nil => simp
  | cons b rest => simp

/-! ## Loops -/

theorem times_accepts {reader : Reader α} {form : Form α} (h : Accepts reader form)
    {count : Nat} {c c' : Cursor} {as : List α} :
    times count reader c = .ok as c' ↔
      as.length = count ∧ ∃ bytes, form.Each as bytes ∧ c.Passes bytes c' := by
  induction count generalizing c c' as with
  | zero =>
      rw [times, pure_ok]
      refine ⟨fun hread => ?_, fun hread => ?_⟩
      · obtain ⟨rfl, rfl⟩ := hread
        exact ⟨rfl, [], .nil, Cursor.passes_nil.2 rfl⟩
      · obtain ⟨hlen, bytes, hform, hpass⟩ := hread
        obtain rfl := List.length_eq_zero_iff.1 hlen
        obtain rfl := Form.each_nil.1 hform
        exact ⟨rfl, (Cursor.passes_nil.1 hpass).symm⟩
  | succ count ih =>
      simp only [times, bind_ok, h _ _ _, ih, pure_ok]
      refine ⟨fun hread => ?_, fun hread => ?_⟩
      · obtain ⟨a, c₁, ⟨x, hx, hpx⟩, rest, c₂, ⟨hlen, y, hy, hpy⟩, rfl, rfl⟩ := hread
        exact ⟨by rw [List.length_cons, hlen], x ++ y, .cons hx hy,
          Cursor.passes_append.2 ⟨c₁, hpx, hpy⟩⟩
      · obtain ⟨hlen, bytes, hform, hpass⟩ := hread
        cases hform with
        | nil => cases hlen
        | cons hx hy =>
            obtain ⟨c₁, hpx, hpy⟩ := Cursor.passes_append.1 hpass
            exact ⟨_, c₁, ⟨_, hx, hpx⟩, _, c',
              ⟨Nat.succ.inj hlen, _, hy, hpy⟩, rfl, rfl⟩

/-- Where no bytes are left the only list is the empty one. -/
theorem each_at_end {form : Form α} (hpos : ∀ a bytes, form a bytes → bytes ≠ [])
    {c c' : Cursor} (hc : c.rest = []) {as : List α} :
    ([] = as ∧ c = c') ↔
      c'.rest = [] ∧ ∃ bytes, form.Each as bytes ∧ c.Passes bytes c' := by
  refine ⟨fun h => ?_, fun h => ?_⟩
  · obtain ⟨rfl, rfl⟩ := h
    exact ⟨hc, [], .nil, Cursor.passes_nil.2 rfl⟩
  · obtain ⟨_, bytes, hform, hpass⟩ := h
    have hrest := hpass.1
    rw [hc] at hrest
    obtain rfl := (List.append_eq_nil_iff.1 hrest.symm).1
    refine ⟨?_, (Cursor.passes_nil.1 hpass).symm⟩
    cases as with
    | nil => rfl
    | cons a as =>
        obtain ⟨x, y, hx, _, hxy⟩ := Form.each_cons.1 hform
        exact absurd (List.append_eq_nil_iff.1 hxy.symm).1 (hpos a x hx)

/-- The open loop goes on to the end of the bytes; that no value is empty makes
the number of bytes enough for its count. -/
theorem untilEnd_accepts {reader : Reader α} {form : Form α} (h : Accepts reader form)
    (hpos : ∀ a bytes, form a bytes → bytes ≠ []) {limit : Nat} {c c' : Cursor}
    {as : List α} (hlimit : c.remaining ≤ limit) :
    untilEnd limit reader c = .ok as c' ↔
      c'.rest = [] ∧ ∃ bytes, form.Each as bytes ∧ c.Passes bytes c' := by
  induction limit generalizing c c' as with
  | zero =>
      have hc : c.rest = [] := List.length_eq_zero_iff.1 (Nat.le_zero.1 hlimit)
      rw [untilEnd, pure_ok]
      exact each_at_end hpos hc
  | succ limit ih =>
      rw [untilEnd, bind_ok]
      simp only [get_ok]
      cases hc : c.rest with
      | nil =>
          rw [← each_at_end hpos hc]
          refine ⟨fun hread => ?_, fun hnil => ?_⟩
          · obtain ⟨_, _, ⟨rfl, rfl⟩, hread⟩ := hread
            rw [hc] at hread
            exact pure_ok.1 hread
          · refine ⟨c, c, ⟨rfl, rfl⟩, ?_⟩
            rw [hc]
            exact pure_ok.2 hnil
      | cons b rest =>
          -- A value takes a byte off, so the rest is within the smaller limit.
          have hless : ∀ {x : List UInt8} {a : α} {c₁ : Cursor}, form a x →
              c.Passes x c₁ → c₁.remaining ≤ limit := by
            intro x a c₁ hx hpass
            have hx0 := List.length_pos_iff.2 (hpos a x hx)
            have hsum := hpass.remaining_eq
            omega
          refine ⟨fun hread => ?_, fun hread => ?_⟩
          · obtain ⟨_, _, ⟨rfl, rfl⟩, hread⟩ := hread
            rw [hc] at hread
            simp only [List.isEmpty_cons, Bool.false_eq_true, if_false, bind_ok,
              h _ _ _, pure_ok] at hread
            obtain ⟨a, c₁, ⟨x, hx, hpx⟩, as', c₂, hrest, rfl, rfl⟩ := hread
            obtain ⟨hend, y, hy, hpy⟩ := (ih (hless hx hpx)).1 hrest
            exact ⟨hend, x ++ y, .cons hx hy, Cursor.passes_append.2 ⟨c₁, hpx, hpy⟩⟩
          · obtain ⟨hend, bytes, hform, hpass⟩ := hread
            cases hform with
            | nil =>
                have hsame := Cursor.passes_nil.1 hpass
                rw [hsame, hc] at hend
                cases hend
            | @cons a as' x y hx hy =>
                obtain ⟨c₁, hpx, hpy⟩ := Cursor.passes_append.1 hpass
                have hrest := (ih (hless hx hpx)).2 ⟨hend, y, hy, hpy⟩
                refine ⟨c, c, ⟨rfl, rfl⟩, ?_⟩
                rw [hc]
                simp only [List.isEmpty_cons, Bool.false_eq_true, if_false, bind_ok,
                  h _ _ _, pure_ok]
                exact ⟨a, c₁, ⟨x, hx, hpx⟩, as', c', hrest, rfl, rfl⟩

theorem many_accepts {reader : Reader α} {form : Form α} (h : Accepts reader form)
    (hpos : ∀ a bytes, form a bytes → bytes ≠ []) {c c' : Cursor} {as : List α} :
    many reader c = .ok as c' ↔
      c'.rest = [] ∧ ∃ bytes, form.Each as bytes ∧ c.Passes bytes c' := by
  rw [many, bind_ok]
  simp only [get_ok]
  refine ⟨fun hread => ?_, fun hform => ?_⟩
  · obtain ⟨_, _, ⟨rfl, rfl⟩, hread⟩ := hread
    exact (untilEnd_accepts h hpos (Nat.le_refl _)).1 hread
  · exact ⟨c, c, ⟨rfl, rfl⟩, (untilEnd_accepts h hpos (Nat.le_refl _)).2 hform⟩

end Reader

end DriveChain
