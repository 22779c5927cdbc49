import DriveChain.Octets.Hex
import DriveChain.Octets.LittleEndian
import DriveChain.Quantity
import Mathlib.Algebra.Group.Nat.Defs

/-!
# Numbers and octets come back from their written forms

Everything a message is made of is written in one of two ways: as bytes or as
hexadecimal text. The lemmas below say of each that reading undoes writing, and
for bytes also that writing undoes reading, because a number of a fixed width
leaves no byte unaccounted for. The records and transactions above only ever
cite these.

Two facts on octet strings are kept here because both forms need them: an
all-zero string is told apart from every other one, and the exclusive or with a
fixed string is its own inverse, which is how a root hash is recovered.
-/

namespace DriveChain

namespace LittleEndian

theorem value_lt (bytes : List UInt8) : value bytes < 256 ^ bytes.length := by
  induction bytes with
  | nil => simp [value]
  | cons b rest ih =>
      have hb := b.toNat_lt
      rw [value, List.length_cons, Nat.pow_succ]
      omega

theorem value_bytes {width n : Nat} (h : n < 256 ^ width) :
    value (bytes width n) = n := by
  induction width generalizing n with
  | zero =>
      rw [Nat.pow_zero] at h
      rw [bytes, value]
      omega
  | succ width ih =>
      rw [Nat.pow_succ] at h
      have hrest : n / 256 < 256 ^ width := by omega
      rw [bytes, value, ih hrest, UInt8.toNat_ofNat']
      omega

/-- The bytes of a number are its lower bytes, then those of the quotient. -/
theorem bytes_add (low high n : Nat) :
    bytes (low + high) n = bytes low n ++ bytes high (n / 256 ^ low) := by
  induction low generalizing n with
  | zero => rw [Nat.zero_add, Nat.pow_zero, Nat.div_one, bytes, List.nil_append]
  | succ low ih =>
      rw [Nat.succ_add, bytes, bytes, ih, Nat.div_div_eq_div_mul, ← Nat.pow_succ',
        List.cons_append]

/-- What lies above the width is not written. -/
theorem bytes_mod (width n : Nat) : bytes width (n % 256 ^ width) = bytes width n := by
  induction width generalizing n with
  | zero => rfl
  | succ width ih =>
      have hlow : UInt8.ofNat (n % 256 ^ (width + 1)) = UInt8.ofNat n := by
        apply UInt8.toNat_inj.1
        rw [UInt8.toNat_ofNat', UInt8.toNat_ofNat', Nat.pow_succ',
          Nat.mod_mul_right_mod]
      have hhigh : n % 256 ^ (width + 1) / 256 = n / 256 % 256 ^ width := by
        rw [Nat.pow_succ', Nat.mod_mul_right_div_self]
      rw [bytes, bytes, hlow, hhigh, ih]

/-- What comes later counts for more. -/
theorem value_append (low high : List UInt8) :
    value (low ++ high) = value low + 256 ^ low.length * value high := by
  induction low with
  | nil => simp [value]
  | cons b low ih =>
      rw [List.cons_append, value, value, ih, List.length_cons, Nat.pow_succ', Nat.mul_add,
        Nat.mul_assoc, Nat.add_assoc]

theorem bytes_value (octets : List UInt8) :
    bytes octets.length (value octets) = octets := by
  induction octets with
  | nil => rfl
  | cons b rest ih =>
      have hb := b.toNat_lt
      have hlow : UInt8.ofNat (b.toNat + 256 * value rest) = b := by
        apply UInt8.toNat_inj.1
        rw [UInt8.toNat_ofNat']
        omega
      have hhigh : (b.toNat + 256 * value rest) / 256 = value rest := by omega
      rw [value, List.length_cons, bytes, hlow, hhigh, ih]

end LittleEndian

@[simp] theorem length_bytes16 (n : UInt16) : (bytes16 n).length = 2 :=
  LittleEndian.length_bytes 2 n.toNat

@[simp] theorem length_bytes32 (n : UInt32) : (bytes32 n).length = 4 :=
  LittleEndian.length_bytes 4 n.toNat

@[simp] theorem length_bytes64 (n : UInt64) : (bytes64 n).length = 8 :=
  LittleEndian.length_bytes 8 n.toNat

@[simp] theorem value_bytes16 (n : UInt16) :
    UInt16.ofNat (LittleEndian.value (bytes16 n)) = n := by
  rw [bytes16, LittleEndian.value_bytes (by have := n.toNat_lt; omega),
    UInt16.ofNat_toNat]

@[simp] theorem value_bytes32 (n : UInt32) :
    UInt32.ofNat (LittleEndian.value (bytes32 n)) = n := by
  rw [bytes32, LittleEndian.value_bytes (by have := n.toNat_lt; omega),
    UInt32.ofNat_toNat]

theorem bytes16_inj {m n : UInt16} (h : bytes16 m = bytes16 n) : m = n := by
  rw [← value_bytes16 m, h, value_bytes16]

theorem value_bytes32_ofNat {n : Nat} (h : n < UInt32.size) :
    LittleEndian.value (bytes32 (UInt32.ofNat n)) = n := by
  have hn := UInt32.toNat_ofNat_of_lt' h
  rw [bytes32, LittleEndian.value_bytes (by rw [hn]; exact h), hn]

theorem bytes32_ofNat_inj {m n : Nat} (hm : m < UInt32.size) (hn : n < UInt32.size)
    (h : bytes32 (UInt32.ofNat m) = bytes32 (UInt32.ofNat n)) : m = n := by
  rw [← value_bytes32_ofNat hm, h, value_bytes32_ofNat hn]

theorem bytes16_value {octets : List UInt8} (h : octets.length = 2) :
    bytes16 (UInt16.ofNat (LittleEndian.value octets)) = octets := by
  have hlt := LittleEndian.value_lt octets
  rw [h] at hlt
  rw [bytes16, UInt16.toNat_ofNat_of_lt' (by simpa using hlt), ← h,
    LittleEndian.bytes_value]

theorem bytes32_value {octets : List UInt8} (h : octets.length = 4) :
    bytes32 (UInt32.ofNat (LittleEndian.value octets)) = octets := by
  have hlt := LittleEndian.value_lt octets
  rw [h] at hlt
  rw [bytes32, UInt32.toNat_ofNat_of_lt' (by simpa using hlt), ← h,
    LittleEndian.bytes_value]

namespace Words

@[simp] theorem join_low_high (n : UInt64) : join (low n) (high n) = n := by
  have hn := n.toNat_lt
  have hlow : (low n).toNat = n.toNat % UInt32.size := UInt32.toNat_ofNat'
  have hhigh : (high n).toNat = n.toNat / UInt32.size :=
    UInt32.toNat_ofNat_of_lt' (by simp only [UInt32.size]; omega)
  have hsum := Nat.mod_add_div n.toNat UInt32.size
  rw [join, hlow, hhigh, hsum, UInt64.ofNat_toNat]

theorem toNat_join (l h : UInt32) :
    (join l h).toNat = l.toNat + UInt32.size * h.toNat := by
  have hl := l.toNat_lt
  have hh := h.toNat_lt
  rw [join, UInt64.toNat_ofNat_of_lt']
  simp only [UInt32.size, UInt64.size]
  omega

@[simp] theorem low_join (l h : UInt32) : low (join l h) = l := by
  apply UInt32.toNat_inj.1
  have hl := l.toNat_lt
  rw [low, toNat_join, UInt32.toNat_ofNat', UInt32.size]
  omega

@[simp] theorem high_join (l h : UInt32) : high (join l h) = h := by
  apply UInt32.toNat_inj.1
  have hl := l.toNat_lt
  have hh := h.toNat_lt
  rw [high, toNat_join, UInt32.toNat_ofNat', UInt32.size]
  omega

theorem join_or (l h mask : UInt32) : join l (h ||| mask) = join l h ||| join 0 mask := by
  have hbit : ∀ (l h : UInt32) (i : Nat), (join l h).toNat.testBit i =
      if i < 32 then l.toNat.testBit i else h.toNat.testBit (i - 32) := by
    intro l h i
    rw [toNat_join, Nat.add_comm]
    exact Nat.testBit_two_pow_mul_add h.toNat l.toNat_lt i
  apply UInt64.toNat_inj.1
  apply Nat.eq_of_testBit_eq
  intro i
  rw [UInt64.toNat_or, Nat.testBit_or, hbit, hbit, hbit, UInt32.toNat_or, Nat.testBit_or]
  by_cases hi : i < 32
  · simp [hi]
  · simp [hi]

/-- The bytes of a 64-bit number are those of its two words. -/
theorem bytes64_eq (n : UInt64) :
    bytes64 n = bytes32 (low n) ++ bytes32 (high n) := by
  have hn := n.toNat_lt
  have hlow : (low n).toNat = n.toNat % 256 ^ 4 := UInt32.toNat_ofNat'
  have hhigh : (high n).toNat = n.toNat / 256 ^ 4 :=
    UInt32.toNat_ofNat_of_lt' (by simp only [UInt32.size]; omega)
  rw [bytes64, bytes32, bytes32, hlow, hhigh, LittleEndian.bytes_mod,
    ← LittleEndian.bytes_add 4 4]

end Words

/-! ## Characters and bytes -/

/-- An ASCII character is its own byte, and the others begin with a byte that is none. -/
theorem utf8EncodeChar_cases (c : Char) :
    (∃ n : Fin 128, c = Char.ofNat n ∧ String.utf8EncodeChar c = [UInt8.ofNat n]) ∨
      128 ≤ c.toNat ∧ ∃ b rest, String.utf8EncodeChar c = b :: rest ∧ 128 ≤ b.toNat := by
  by_cases hascii : c.toNat < 128
  · refine .inl ⟨⟨c.toNat, hascii⟩, (Char.ofNat_toNat c).symm, ?_⟩
    rw [String.utf8EncodeChar]
    exact if_pos (Nat.le_of_lt_succ hascii)
  · refine .inr ⟨by omega, ?_⟩
    have hhigh : ¬ c.val.toNat ≤ 127 := fun h => hascii (Nat.lt_succ_of_le h)
    rw [String.utf8EncodeChar, if_neg hhigh]
    -- by the count of bytes that the character takes
    split
    · exact ⟨_, _, rfl, by rw [UInt8.toNat_ofNat']; omega⟩
    · split
      · exact ⟨_, _, rfl, by rw [UInt8.toNat_ofNat']; omega⟩
      · exact ⟨_, _, rfl, by rw [UInt8.toNat_ofNat']; omega⟩

theorem utf8ByteSize_ofList {text : List Char} (h : ∀ c ∈ text, c.utf8Size = 1) :
    (String.ofList text).utf8ByteSize = text.length := by
  induction text with
  | nil => rfl
  | cons c rest ih =>
      rw [List.forall_mem_cons] at h
      rw [String.ofList_cons, String.utf8ByteSize_append, String.utf8ByteSize_singleton,
        h.1, ih h.2, List.length_cons, Nat.add_comm]

/-! ## Hexadecimal text

The digits are ASCII, so the bytes of the text are the digits one by one and
the reader's pairs are the writer's. -/

namespace Hex

/-- A digit takes one byte, and that byte has the digit's value. -/
theorem digit_spec {n : Nat} (h : n < 16) :
    ∃ b, String.utf8EncodeChar (digit n) = [b] ∧ value? b = some n := by
  have hall : ∀ k : Fin 16,
      String.utf8EncodeChar (digit k) = [UInt8.ofNat (digit k).toNat] ∧
        value? (UInt8.ofNat (digit k).toNat) = some k.val := by decide
  exact ⟨_, hall ⟨n, h⟩⟩

theorem decodePairs_digits (bytes : List UInt8) (position : Nat) :
    decodePairs position ((bytes.flatMap byteDigits).flatMap String.utf8EncodeChar)
      = .ok bytes := by
  induction bytes generalizing position with
  | nil => rfl
  | cons b rest ih =>
      have hb := b.toNat_lt
      obtain ⟨high, hh, hhv⟩ := digit_spec (show b.toNat / 16 < 16 by omega)
      obtain ⟨low, hl, hlv⟩ := digit_spec (show b.toNat % 16 < 16 by omega)
      have hsum : 16 * (b.toNat / 16) + b.toNat % 16 = b.toNat := by omega
      rw [List.flatMap_cons, byteDigits, List.flatMap_append, List.flatMap_cons,
        List.flatMap_cons, List.flatMap_nil, hh, hl]
      simp only [List.cons_append, List.nil_append, List.append_nil]
      rw [decodePairs, hhv]
      simp only []
      rw [hlv]
      simp only []
      rw [ih, hsum, UInt8.ofNat_toNat]

theorem utf8_encode (bytes : List UInt8) :
    utf8 (encode bytes) = (bytes.flatMap byteDigits).flatMap String.utf8EncodeChar := by
  rw [utf8, encode, String.toList_ofList]

theorem length_utf8_encode (bytes : List UInt8) :
    (utf8 (encode bytes)).length = 2 * bytes.length := by
  rw [utf8_encode]
  induction bytes with
  | nil => rfl
  | cons b rest ih =>
      have hb := b.toNat_lt
      obtain ⟨high, hh, _⟩ := digit_spec (show b.toNat / 16 < 16 by omega)
      obtain ⟨low, hl, _⟩ := digit_spec (show b.toNat % 16 < 16 by omega)
      rw [List.flatMap_cons, List.flatMap_append, List.length_append, ih, byteDigits,
        List.flatMap_cons, List.flatMap_cons, List.flatMap_nil, hh, hl]
      simp only [List.cons_append, List.nil_append, List.length_cons, List.length_nil]
      omega

theorem decode_encode (bytes : List UInt8) : decode (encode bytes) = .ok bytes := by
  have hlen := length_utf8_encode bytes
  unfold decode
  simp only []
  rw [if_neg (by omega), utf8_encode, decodePairs_digits]

/-! Reading goes by the bytes of a text, and other characters than digits may be in
it. What keeps them apart is that only ASCII characters are their own bytes. -/

theorem toUpper_eq_self {c : Char} (h : 128 ≤ c.toNat) : c.toUpper = c := by
  unfold Char.toUpper
  rw [dif_neg]
  intro hlower
  have hz : c.toNat ≤ 'z'.toNat := hlower.2
  have : 'z'.toNat = 122 := rfl
  omega

theorem toNat_digit_lt {d : Nat} (h : d < 16) : (digit d).toNat < 128 := by
  have hall : ∀ k : Fin 16, (digit k).toNat < 128 := by decide
  exact hall ⟨d, h⟩

theorem value?_eq_none {b : UInt8} (h : 128 ≤ b.toNat) : value? b = none := by
  unfold value?
  simp only []
  rw [if_neg (by omega), if_neg (by omega), if_neg (by omega)]

theorem value?_ascii {n : Fin 128} {d : Nat} :
    value? (UInt8.ofNat n) = some d ↔ d < 16 ∧ (Char.ofNat n).toUpper = digit d := by
  have hlt : ∀ n : Fin 128, ∀ d ∈ value? (UInt8.ofNat n), d < 16 := by decide
  have hall : ∀ (n : Fin 128) (d : Fin 16),
      value? (UInt8.ofNat n) = some d.val ↔ (Char.ofNat n).toUpper = digit d := by
    decide +kernel
  refine ⟨fun h => ?_, fun h => (hall n ⟨d, h.1⟩).2 h.2⟩
  have hd := hlt n d h
  exact ⟨hd, (hall n ⟨d, hd⟩).1 h⟩

/-- Bytes are read as digits just if the text, in upper case, is these digits. -/
theorem mapM_value?_utf8 {text : List Char} {ds : List Nat} :
    (text.flatMap String.utf8EncodeChar).mapM value? = some ds ↔
      (∀ d ∈ ds, d < 16) ∧ text.map Char.toUpper = ds.map digit := by
  induction text generalizing ds with
  | nil => cases ds <;> simp
  | cons c text ih =>
      rw [List.flatMap_cons, List.map_cons]
      rcases utf8EncodeChar_cases c with ⟨n, rfl, hbytes⟩ | ⟨hhigh, b, rest, hbytes, hb⟩
      · rw [hbytes, List.singleton_append, List.mapM_cons]
        cases ds with
        | nil =>
            cases value? (UInt8.ofNat n) with
            | none => simp
            | some d => cases (text.flatMap String.utf8EncodeChar).mapM value? <;> simp
        | cons d ds =>
            simp only [Option.bind_eq_bind, Option.bind_eq_some_iff, Option.pure_def,
              Option.some.injEq, List.cons.injEq, exists_eq_right_right, ih, value?_ascii,
              List.forall_mem_cons, List.map_cons]
            exact and_and_and_comm
      · rw [hbytes, List.cons_append, List.mapM_cons, value?_eq_none hb]
        refine ⟨fun h => (nomatch h), fun h => ?_⟩
        obtain ⟨hds, heq⟩ := h
        cases ds with
        | nil => cases heq
        | cons d ds =>
            have hd := toNat_digit_lt (hds d List.mem_cons_self)
            rw [List.map_cons, toUpper_eq_self hhigh] at heq
            rw [← (List.cons.inj heq).1] at hd
            omega

end Hex

namespace Octets

variable {n : Nat}

/-- Octets are read back from their digits. -/
theorem ofHex_hex (a : Octets n) : ofHex n a.hex = .ok a := by
  have hlen := Hex.length_utf8_encode a.bytes
  have hread : Hex.decodePairs 0 (utf8 a.hex) = .ok a.bytes := by
    rw [hex, Hex.utf8_encode, Hex.decodePairs_digits]
  rw [← hex, a.length_bytes] at hlen
  unfold ofHex
  simp only []
  rw [if_neg (by omega), dif_pos (by omega)]
  split
  · next e he =>
      rw [hread] at he
      cases he
  · next bytes hb =>
      rw [hread] at hb
      cases hb
      rfl

/-! ## Zeros and exclusive or -/

theorem isZero_iff {a : Octets n} : a.isZero = true ↔ a = zero n := by
  refine ⟨fun h => ?_, fun h => ?_⟩
  · apply Octets.ext
    have hall : ∀ b ∈ a.bytes, b = 0 := by
      simpa [isZero] using h
    rw [zero, List.eq_replicate_of_mem hall, a.length_bytes]
  · subst h
    simp [isZero, zero]

theorem nonzero?_zero : (zero n).nonzero? = none := by
  rw [nonzero?, isZero_iff.2 rfl, if_pos rfl]

theorem nonzero?_eq_some {a b : Octets n} :
    a.nonzero? = some b ↔ a.isZero = false ∧ a = b := by
  unfold nonzero?
  cases a.isZero <;> simp

theorem getD_nonzero? (a : Octets n) : a.nonzero?.getD (zero n) = a := by
  unfold nonzero?
  split
  · next hz => exact (isZero_iff.1 hz).symm
  · rfl

/-- The exclusive or with the same octets twice changes nothing. -/
theorem xor_xor_self (a b : Octets n) : (a.xor b).xor b = a := by
  apply Octets.ext
  have hlen : a.bytes.length = b.bytes.length := by
    rw [a.length_bytes, b.length_bytes]
  simp only [xor]
  revert hlen
  generalize a.bytes = as
  generalize b.bytes = bs
  induction as generalizing bs with
  | nil => intro _; simp
  | cons x xs ih =>
      intro hlen
      cases bs with
      | nil => cases hlen
      | cons y ys =>
          rw [List.zipWith_cons_cons, List.zipWith_cons_cons, ih ys (Nat.succ.inj hlen),
            UInt8.xor_assoc, UInt8.xor_self, UInt8.xor_zero]

theorem xor_comm (a b : Octets n) : a.xor b = b.xor a := by
  apply Octets.ext
  simp only [xor]
  exact List.zipWith_comm_of_comm (fun x y => UInt8.xor_comm x y)

theorem xor_xor_left (a b : Octets n) : a.xor (b.xor a) = b := by
  rw [xor_comm a, xor_xor_self]

theorem xor_xor_right (a b : Octets n) : (a.xor b).xor a = b := by
  rw [xor_comm a, xor_xor_self]

end Octets

end DriveChain
