import DriveChain.Octets.Base32
import DriveChain.Proofs.Octets
import Mathlib.Algebra.Group.Nat.Defs
import Mathlib.Data.List.Basic

/-!
# Base 32 text comes back as the same bytes

A group of five bytes and one of eight symbols are the same number, below `256 ^ 5` in
one base and below `32 ^ 8` in the other. These are equal, which is all there is to
regrouping: digits in one base, read as a number and written in the other base, come
back from there whenever both bases have room for the same numbers. Texts and byte
strings of whole groups follow group by group.

The symbols themselves are the thirty-two of RFC 4648, each of them the only spelling
of its number.
-/

namespace DriveChain

/-! ## Digits -/

namespace Digits

theorem ofNat_succ (base width n : Nat) :
    ofNat base (width + 1) n = n / base ^ width % base :: ofNat base width n := rfl

@[simp] theorem length_ofNat (base width n : Nat) : (ofNat base width n).length = width := by
  induction width with
  | zero => rfl
  | succ width ih => rw [ofNat_succ, List.length_cons, ih]

theorem lt_of_mem_ofNat {base width n d : Nat} (hbase : 0 < base)
    (hd : d ∈ ofNat base width n) : d < base := by
  induction width with
  | zero => cases hd
  | succ width ih =>
      rw [ofNat_succ, List.mem_cons] at hd
      obtain rfl | hd := hd
      · exact Nat.mod_lt _ hbase
      · exact ih hd

/-- The digits below a number multiply it by the base each. -/
theorem foldl_digits (base n : Nat) (low : List Nat) :
    low.foldl (fun n d => base * n + d) n = base ^ low.length * n + toNat base low := by
  induction low generalizing n with
  | nil => simp [toNat]
  | cons d low ih =>
      rw [toNat, List.foldl_cons, List.foldl_cons, ih, ih, List.length_cons, Nat.pow_succ,
        Nat.mul_zero, Nat.zero_add, Nat.mul_add, Nat.mul_assoc, Nat.add_assoc]

theorem toNat_cons (base d : Nat) (low : List Nat) :
    toNat base (d :: low) = base ^ low.length * d + toNat base low := by
  rw [toNat, List.foldl_cons, foldl_digits, Nat.mul_zero, Nat.zero_add]

theorem toNat_lt {base : Nat} {digits : List Nat} (h : ∀ d ∈ digits, d < base) :
    toNat base digits < base ^ digits.length := by
  induction digits with
  | nil => exact Nat.one_pos
  | cons d low ih =>
      have hd : d + 1 ≤ base := h d List.mem_cons_self
      have hlow := ih fun d' hd' => h d' (List.mem_cons_of_mem _ hd')
      calc toNat base (d :: low)
          = base ^ low.length * d + toNat base low := toNat_cons base d low
        _ < base ^ low.length * (d + 1) := by rw [Nat.mul_add, Nat.mul_one]; omega
        _ ≤ base ^ low.length * base := Nat.mul_le_mul_left _ hd
        _ = base ^ (d :: low).length := (Nat.pow_succ ..).symm

theorem toNat_ofNat (base width n : Nat) : toNat base (ofNat base width n) = n % base ^ width := by
  induction width with
  | zero => rw [Nat.pow_zero, Nat.mod_one]; rfl
  | succ width ih =>
      rw [ofNat_succ, toNat_cons, length_ofNat, ih, Nat.pow_succ, Nat.mod_mul, Nat.add_comm]

/-- What stands above the width has no part in the digits. -/
theorem ofNat_add_mul (base width high n : Nat) :
    ofNat base width (base ^ width * high + n) = ofNat base width n := by
  induction width generalizing high with
  | zero => rfl
  | succ width ih =>
      have hsplit : base ^ (width + 1) * high = base ^ width * (base * high) := by
        rw [Nat.pow_succ, Nat.mul_assoc]
      rw [ofNat_succ, ofNat_succ, hsplit, ih]
      congr 1
      obtain hzero | hpos := Nat.eq_zero_or_pos (base ^ width)
      · rw [hzero, Nat.zero_mul, Nat.zero_add]
      · rw [Nat.mul_add_div hpos, Nat.mul_add_mod]

theorem ofNat_toNat {base : Nat} {digits : List Nat} (h : ∀ d ∈ digits, d < base) :
    ofNat base digits.length (toNat base digits) = digits := by
  induction digits with
  | nil => rfl
  | cons d low ih =>
      have hd : d < base := h d List.mem_cons_self
      have hlow : ∀ d' ∈ low, d' < base := fun d' hd' => h d' (List.mem_cons_of_mem _ hd')
      have htop : (base ^ low.length * d + toNat base low) / base ^ low.length % base = d := by
        rw [Nat.mul_add_div (Nat.pow_pos (Nat.zero_lt_of_lt hd)),
          Nat.div_eq_of_lt (toNat_lt hlow), Nat.add_zero, Nat.mod_eq_of_lt hd]
      rw [List.length_cons, ofNat_succ, toNat_cons, htop, ofNat_add_mul, ih hlow]

/-- Digits come back from another base that has room for the same numbers. -/
theorem regroup {base other width count : Nat} {digits : List Nat}
    (hroom : base ^ width = other ^ count) (hlen : digits.length = width)
    (h : ∀ d ∈ digits, d < base) :
    ofNat base width (toNat other (ofNat other count (toNat base digits))) = digits := by
  have hlt : toNat base digits < other ^ count := by
    rw [← hroom, ← hlen]
    exact toNat_lt h
  rw [toNat_ofNat, Nat.mod_eq_of_lt hlt, ← hlen, ofNat_toNat h]

end Digits

namespace Base32

/-! ## Symbols -/

/-- The symbols in the order of the numbers they stand for. -/
def alphabet : List Char :=
  "ABCDEFGHIJKLMNOPQRSTUVWXYZ234567".toList

theorem getElem?_alphabet {n : Nat} (h : n < 32) : alphabet[n]? = some (symbol n) := by
  have hall : ∀ k : Fin 32, alphabet[k.val]? = some (symbol k) := by decide
  exact hall ⟨n, h⟩

theorem symbol_mem {n : Nat} (h : n < 32) : symbol n ∈ alphabet :=
  List.mem_of_getElem? (getElem?_alphabet h)

theorem forall_alphabet {p : Char → Prop} (h : ∀ n : Fin 32, p (symbol n)) :
    ∀ c ∈ alphabet, p c := by
  intro c hc
  obtain ⟨n, hn, rfl⟩ := List.getElem_of_mem hc
  have hsymbol := getElem?_alphabet hn
  rw [List.getElem?_eq_getElem hn, Option.some_inj] at hsymbol
  rw [hsymbol]
  exact h ⟨n, hn⟩

theorem value?_symbol {n : Nat} (h : n < 32) : value? (symbol n) = some n := by
  have hall : ∀ k : Fin 32, value? (symbol k) = some k.val := by decide
  exact hall ⟨n, h⟩

theorem value?_ok {c : Char} {n : Nat} : value? c = some n ↔ n < 32 ∧ c = symbol n := by
  refine ⟨fun h => ?_, fun ⟨hn, hc⟩ => hc ▸ value?_symbol hn⟩
  unfold value? at h
  simp only [] at h
  split at h
  case isTrue hletter =>
    cases h
    refine ⟨by omega, ?_⟩
    rw [symbol, if_pos (by omega), Nat.add_sub_cancel' hletter.1, Char.ofNat_toNat]
  case isFalse =>
    split at h
    case isTrue hdigit =>
      cases h
      refine ⟨by omega, ?_⟩
      rw [symbol, if_neg (by omega), Nat.add_sub_cancel' (by omega), Char.ofNat_toNat]
    case isFalse => cases h

theorem mapM_value? {text : List Char} {values : List Nat} :
    text.mapM value? = some values ↔ (∀ v ∈ values, v < 32) ∧ text = values.map symbol := by
  induction text generalizing values with
  | nil => cases values <;> simp
  | cons c rest ih =>
      rw [List.mapM_cons]
      cases values with
      | nil => cases value? c <;> cases rest.mapM value? <;> simp
      | cons v vs =>
          simp only [Option.bind_eq_bind, Option.bind_eq_some_iff, Option.pure_def,
            Option.some.injEq, List.cons.injEq, exists_eq_right_right, ih, value?_ok,
            List.forall_mem_cons, List.map_cons]
          exact and_and_and_comm

/-! ## Groups -/

/-- The numbers that the symbols of the encoded bytes stand for. -/
def values : List UInt8 → List Nat
  | a :: b :: c :: d :: e :: rest =>
    Digits.ofNat 32 8 (Digits.toNat 256 ([a, b, c, d, e].map UInt8.toNat)) ++ values rest
  | _ => []

theorem length_lt_five {bytes : List UInt8}
    (h : ∀ a b c d e rest, bytes = a :: b :: c :: d :: e :: rest → False) : bytes.length < 5 := by
  match bytes, h with
  | [], _ | [_], _ | [_, _], _ | [_, _, _], _ | [_, _, _, _], _ => simp
  | a :: b :: c :: d :: e :: rest, h => exact (h a b c d e rest rfl).elim

theorem length_lt_eight {vs : List Nat}
    (h : ∀ a b c d e f g i rest, vs = a :: b :: c :: d :: e :: f :: g :: i :: rest → False) :
    vs.length < 8 := by
  match vs, h with
  | [], _ | [_], _ | [_, _], _ | [_, _, _], _ | [_, _, _, _], _ | [_, _, _, _, _], _
  | [_, _, _, _, _, _], _ | [_, _, _, _, _, _, _], _ => simp
  | a :: b :: c :: d :: e :: f :: g :: i :: rest, h => exact (h a b c d e f g i rest rfl).elim

theorem encode_eq (bytes : List UInt8) : encode bytes = (values bytes).map symbol := by
  fun_induction encode bytes with
  | case1 a b c d e rest ih => rw [values, List.map_append, ih]; rfl
  | case2 bytes hshort => rw [values.eq_2 _ hshort]; rfl

theorem value_lt {bytes : List UInt8} : ∀ v ∈ values bytes, v < 32 := by
  fun_induction values bytes with
  | case1 a b c d e rest ih =>
      intro v hv
      obtain hv | hv := List.mem_append.1 hv
      · exact Digits.lt_of_mem_ofNat (by decide) hv
      · exact ih v hv
  | case2 => intro v hv; cases hv

theorem length_values (bytes : List UInt8) :
    (values bytes).length = 8 * (bytes.length / 5) := by
  fun_induction values bytes with
  | case1 a b c d e rest ih =>
      rw [List.length_append, Digits.length_ofNat, ih]
      simp only [List.length_cons]
      omega
  | case2 bytes hshort => rw [Nat.div_eq_of_lt (length_lt_five hshort)]; rfl

/-- Five bytes and eight symbols have room for the same numbers. -/
theorem room : 256 ^ 5 = 32 ^ 8 := rfl

theorem toNat_lt_of_mem {bytes : List UInt8} : ∀ d ∈ bytes.map UInt8.toNat, d < 256 := by
  intro d hd
  obtain ⟨b, -, rfl⟩ := List.mem_map.1 hd
  exact b.toNat_lt

theorem map_ofNat_toNat (bytes : List UInt8) :
    (bytes.map UInt8.toNat).map UInt8.ofNat = bytes := by
  rw [List.map_map]
  exact (List.map_congr_left fun b _ => UInt8.ofNat_toNat).trans (List.map_id' bytes)

theorem map_toNat_ofNat {digits : List Nat} (h : ∀ d ∈ digits, d < 256) :
    (digits.map UInt8.ofNat).map UInt8.toNat = digits := by
  rw [List.map_map]
  exact (List.map_congr_left fun d hd => UInt8.toNat_ofNat_of_lt' (h d hd)).trans
    (List.map_id' digits)

theorem decodeValues_group (n : Nat) (rest : List Nat) :
    decodeValues (Digits.ofNat 32 8 n ++ rest) =
      decodeGroup (Digits.ofNat 32 8 n) ++ decodeValues rest := rfl

theorem values_group (group : List Nat) (rest : List UInt8) :
    values (decodeGroup group ++ rest) =
      Digits.ofNat 32 8 (Digits.toNat 256 ((decodeGroup group).map UInt8.toNat)) ++
        values rest := rfl

theorem decodeValues_values {bytes : List UInt8} (h : 5 ∣ bytes.length) :
    decodeValues (values bytes) = bytes := by
  fun_induction values bytes with
  | case1 a b c d e rest ih =>
      have hrest : 5 ∣ rest.length := (Nat.dvd_add_left (Nat.dvd_refl 5)).1 h
      rw [decodeValues_group, ih hrest, decodeGroup,
        Digits.regroup room rfl toNat_lt_of_mem, map_ofNat_toNat]
      rfl
  | case2 bytes hshort =>
      rw [List.eq_nil_of_length_eq_zero (Nat.eq_zero_of_dvd_of_lt h (length_lt_five hshort))]
      rfl

theorem values_decodeValues {vs : List Nat} (h : 8 ∣ vs.length) (hlt : ∀ v ∈ vs, v < 32) :
    values (decodeValues vs) = vs := by
  fun_induction decodeValues vs with
  | case1 a b c d e f g i rest ih =>
      have hrest : 8 ∣ rest.length := (Nat.dvd_add_left (Nat.dvd_refl 8)).1 h
      have hgroup : ∀ v ∈ [a, b, c, d, e, f, g, i], v < 32 := fun v hv =>
        hlt v (List.mem_append_left rest hv)
      have hbytes : (decodeGroup [a, b, c, d, e, f, g, i]).map UInt8.toNat =
          Digits.ofNat 256 5 (Digits.toNat 32 [a, b, c, d, e, f, g, i]) :=
        map_toNat_ofNat fun d hd => Digits.lt_of_mem_ofNat (by decide) hd
      rw [values_group, ih hrest fun v hv => hlt v (List.mem_append_right [a, b, c, d, e, f, g, i] hv),
        hbytes,
        Digits.regroup room.symm rfl hgroup]
      rfl
  | case2 vs hshort =>
      rw [List.eq_nil_of_length_eq_zero (Nat.eq_zero_of_dvd_of_lt h (length_lt_eight hshort))]
      rfl

/-! ## Texts -/

theorem length_encode (bytes : List UInt8) : (encode bytes).length = 8 * (bytes.length / 5) := by
  rw [encode_eq, List.length_map, length_values]

theorem mem_alphabet_of_mem_encode {bytes : List UInt8} {c : Char} (hc : c ∈ encode bytes) :
    c ∈ alphabet := by
  rw [encode_eq] at hc
  obtain ⟨v, hv, rfl⟩ := List.mem_map.1 hc
  exact symbol_mem (value_lt v hv)

theorem decode?_encode {bytes : List UInt8} (h : 5 ∣ bytes.length) :
    decode? (encode bytes) = some bytes := by
  rw [decode?, mapM_value?.2 ⟨value_lt, encode_eq bytes⟩, Option.map_some, decodeValues_values h]

theorem encode_of_decode? {text : List Char} {bytes : List UInt8} (h : 8 ∣ text.length)
    (hdecode : decode? text = some bytes) : encode bytes = text := by
  obtain ⟨vs, hvs, rfl⟩ := Option.map_eq_some_iff.1 hdecode
  obtain ⟨hlt, rfl⟩ := mapM_value?.1 hvs
  rw [List.length_map] at h
  rw [encode_eq, values_decodeValues h hlt]

theorem mem_alphabet_of_decode? {text : List Char} {bytes : List UInt8}
    (h : decode? text = some bytes) : ∀ c ∈ text, c ∈ alphabet := by
  obtain ⟨vs, hvs, -⟩ := Option.map_eq_some_iff.1 h
  obtain ⟨hlt, rfl⟩ := mapM_value?.1 hvs
  intro c hc
  obtain ⟨v, hv, rfl⟩ := List.mem_map.1 hc
  exact symbol_mem (hlt v hv)

/-- Every symbol takes one byte. -/
theorem utf8ByteSize_ofList {text : List Char} (h : ∀ c ∈ text, c ∈ alphabet) :
    (String.ofList text).utf8ByteSize = text.length := by
  have hone : ∀ c ∈ alphabet, c.utf8Size = 1 := forall_alphabet (by decide)
  exact DriveChain.utf8ByteSize_ofList fun c hc => hone c (h c hc)

/-- The first symbol has the upper five bits of the first byte. -/
theorem head?_encode {first : UInt8} {rest : List UInt8} (h : 4 ≤ rest.length) :
    (encode (first :: rest)).head? = some (symbol (first.toNat / 8)) := by
  match rest, h with
  | b :: c :: d :: e :: rest, _ =>
    have htop : Digits.toNat 256 ([first, b, c, d, e].map UInt8.toNat) / 32 ^ 7 % 32 =
        first.toNat / 8 := by
      have hfirst := first.toNat_lt
      have hlow : Digits.toNat 256 ([b, c, d, e].map UInt8.toNat) < 256 ^ 4 :=
        Digits.toNat_lt toNat_lt_of_mem
      rw [List.map_cons, Digits.toNat_cons]
      simp only [List.length_map, List.length_cons, List.length_nil]
      omega
    rw [encode_eq, values, Digits.ofNat_succ, htop]
    rfl

end Base32

end DriveChain
