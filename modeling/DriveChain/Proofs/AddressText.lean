import DriveChain.Proofs.Address

/-!
# Which texts are addresses

RFC 4648 describes base 32 by bits: those of the bytes stand one after the other, and
every five of them are the number of a symbol. The encoder goes by groups of five bytes
and never looks at a bit. Both come to the same for whole groups, since the digits of a
number in a power of some base, each written in that base, are its digits there; and as
five bits tell the numbers below thirty-two apart, only one text spells given bytes.

A text is then an address just if, without its dashes and in upper case, it is the forty
symbols of raw bytes that are in order, and these symbols are the text of the address.
-/

namespace DriveChain

/-! ## Digits of digits -/

namespace Digits

theorem ofNat_add (base high low n : Nat) :
    ofNat base (high + low) n = ofNat base high (n / base ^ low) ++ ofNat base low n := by
  induction high with
  | zero =>
      rw [Nat.zero_add]
      rfl
  | succ high ih =>
      rw [Nat.succ_add, ofNat_succ, ofNat_succ, ih, Nat.div_div_eq_div_mul, ← Nat.pow_add,
        Nat.add_comm low high, List.cons_append]

theorem ofNat_mod (base width n : Nat) :
    ofNat base width (n % base ^ width) = ofNat base width n := by
  have hsplit := ofNat_add_mul base width (n / base ^ width) (n % base ^ width)
  rw [Nat.div_add_mod] at hsplit
  exact hsplit.symm

/-- The digits in a power of the base, each written in the base itself, are the digits
of the number there. -/
theorem flatMap_ofNat (base count width n : Nat) :
    (ofNat (base ^ count) width n).flatMap (ofNat base count) =
      ofNat base (count * width) n := by
  induction width with
  | zero => rfl
  | succ width ih =>
      rw [ofNat_succ, List.flatMap_cons, ih, ofNat_mod, ← Nat.pow_mul, Nat.mul_succ,
        Nat.add_comm (count * width) count, ofNat_add]

theorem flatMap_digits {base count : Nat} {digits : List Nat}
    (h : ∀ d ∈ digits, d < base ^ count) : digits.flatMap (ofNat base count) =
      ofNat base (count * digits.length) (toNat (base ^ count) digits) := by
  rw [← flatMap_ofNat, ofNat_toNat h]

theorem ofNat_toNat_flatMap {base count : Nat} {digits : List Nat}
    (h : ∀ d ∈ digits, d < base ^ count) :
    ofNat (base ^ count) digits.length (toNat base (digits.flatMap (ofNat base count))) =
      digits := by
  rw [flatMap_digits h]
  exact regroup (Nat.pow_mul ..).symm rfl h

/-- Numbers for which some count of digits has room are told apart by these digits, even
when they stand one after the other. -/
theorem eq_of_flatMap_ofNat {base count : Nat} {digits digits' : List Nat}
    (hpos : 0 < count) (h : ∀ d ∈ digits, d < base ^ count)
    (h' : ∀ d ∈ digits', d < base ^ count)
    (heq : digits.flatMap (ofNat base count) = digits'.flatMap (ofNat base count)) :
    digits = digits' := by
  have hlen : digits.length = digits'.length := by
    have hlen := congrArg List.length heq
    rw [flatMap_digits h, flatMap_digits h', length_ofNat, length_ofNat] at hlen
    exact Nat.eq_of_mul_eq_mul_left hpos hlen
  have hread := ofNat_toNat_flatMap h
  rw [heq, hlen, ofNat_toNat_flatMap h'] at hread
  exact hread.symm

end Digits

/-! ## Bits and symbols -/

namespace Base32

/-- The text is the encoding that RFC 4648 gives: each of its characters is one of the
alphabet, and the numbers of these have, five bits each, the bits of the bytes. -/
def Spells (text : List Char) (bytes : List UInt8) : Prop :=
  ∃ numbers : List Nat, text.map some = numbers.map (alphabet[·]?) ∧
    numbers.flatMap (Digits.ofNat 2 5) = bytes.flatMap fun b => Digits.ofNat 2 8 b.toNat

/-- Eight symbols and five bytes with the same number have the same bits. -/
theorem flatMap_group (group : List UInt8) (h : group.length = 5) :
    (Digits.ofNat 32 8 (Digits.toNat 256 (group.map UInt8.toNat))).flatMap (Digits.ofNat 2 5) =
      group.flatMap fun b => Digits.ofNat 2 8 b.toNat := by
  have hsymbols := Digits.flatMap_ofNat 2 5 8 (Digits.toNat 256 (group.map UInt8.toNat))
  have hbytes : (group.map UInt8.toNat).flatMap (Digits.ofNat 2 8) =
      Digits.ofNat 2 (8 * (group.map UInt8.toNat).length)
        (Digits.toNat 256 (group.map UInt8.toNat)) :=
    Digits.flatMap_digits toNat_lt_of_mem
  rw [List.length_map, h, List.flatMap_map] at hbytes
  exact hsymbols.trans hbytes.symm

theorem flatMap_values {bytes : List UInt8} (h : 5 ∣ bytes.length) :
    (values bytes).flatMap (Digits.ofNat 2 5) =
      bytes.flatMap fun b => Digits.ofNat 2 8 b.toNat := by
  fun_induction values bytes with
  | case1 a b c d e rest ih =>
      have hrest : 5 ∣ rest.length := (Nat.dvd_add_left (Nat.dvd_refl 5)).1 h
      have hgroup := flatMap_group [a, b, c, d, e] rfl
      rw [List.flatMap_append, ih hrest, hgroup, ← List.flatMap_append]
      rfl
  | case2 bytes hshort =>
      rw [List.eq_nil_of_length_eq_zero (Nat.eq_zero_of_dvd_of_lt h (length_lt_five hshort))]
      rfl

theorem spells_iff {text : List Char} {bytes : List UInt8} (h : 5 ∣ bytes.length) :
    Spells text bytes ↔ text = encode bytes := by
  have hsymbols : (values bytes).map (alphabet[·]?) = (encode bytes).map some := by
    rw [encode_eq, List.map_map]
    exact List.map_congr_left fun v hv => getElem?_alphabet (value_lt v hv)
  constructor
  · rintro ⟨numbers, htext, hbits⟩
    have hlt : ∀ n ∈ numbers, n < 32 := by
      intro n hn
      have hmem := List.mem_map_of_mem (f := (alphabet[·]?)) hn
      rw [← htext] at hmem
      obtain ⟨c, -, hc⟩ := List.mem_map.1 hmem
      exact (List.getElem?_eq_some_iff.1 hc.symm).1
    have hnumbers : numbers = values bytes :=
      Digits.eq_of_flatMap_ofNat (by decide) hlt value_lt (hbits.trans (flatMap_values h).symm)
    rw [hnumbers, hsymbols] at htext
    exact List.map_injective_iff.2 (fun _ _ => Option.some.inj) htext
  · rintro rfl
    exact ⟨values bytes, hsymbols.symm, flatMap_values h⟩

end Base32

/-! ## Addresses -/

namespace Address

/-- Bytes that are in order as the raw form of an address. -/
structure IsRaw (bytes : List UInt8) : Prop where
  length : bytes.length = 25
  checked : bytes.drop 21 = (checksum (bytes.take 21)).bytes
  known : ∃ network : Network, bytes.head? = some network.byte

theorem isRaw_iff {bytes : List UInt8} : IsRaw bytes ↔ ∃ a : Address, bytes = a.raw := by
  refine ⟨fun h => ?_, fun ⟨a, ha⟩ => ?_⟩
  · obtain ⟨network, hnetwork⟩ := h.known
    obtain ⟨first, rest, rfl⟩ := List.exists_cons_of_length_eq_add_one h.length
    have hversioned : (first :: rest).take 21 = network.byte :: rest.take 20 := by
      rw [← Option.some.inj hnetwork]
      rfl
    have hdigest : (rest.take 20).length = 20 := by
      have hlength := h.length
      rw [List.length_cons] at hlength
      rw [List.length_take]
      omega
    refine ⟨⟨network, rest.take 20, hdigest⟩, ?_⟩
    rw [raw, versioned, ← hversioned, ← h.checked, List.take_append_drop]
  · rw [ha]
    exact ⟨a.length_raw, a.wellFormed.checked, a.network, rfl⟩

theorem toUpper_eq (c : Char) :
    c.toUpper = if 'a' ≤ c ∧ c ≤ 'z' then Char.ofNat (c.toNat - 32) else c := by
  by_cases hc : 'a' ≤ c ∧ c ≤ 'z'
  · rw [if_pos hc]
    exact forall_letter (p := fun c => c.toUpper = Char.ofNat (c.toNat - 32)) (by decide) hc
  · rw [if_neg hc, toUpper_of_not_letter hc]

/-- A text is an address just if it becomes the encoding, in forty characters, of raw bytes that are
in order once its dashes are left out and the letters `a` to `z` are put into upper case; and it is
the address whose text is what it becomes. -/
theorem ofText_accepts_canonical_spellings (text : String) (spelling : List Char)
    (hspelling : spelling = (text.toList.filter (· ≠ '-')).map fun c =>
      if 'a' ≤ c ∧ c ≤ 'z' then Char.ofNat (c.toNat - 32) else c) :
    ((∃ a, ofText text = .ok a) ↔ ∃ bytes, IsRaw bytes ∧
      spelling.length = 40 ∧ Base32.Spells spelling bytes) ∧
    ∀ a, ofText text = .ok a ↔ a.text.toList = spelling := by
  have hread : ∀ a, ofText text = .ok a ↔ a.text.toList = spelling := by
    intro a
    rw [ofText_ok, hspelling, ← funext toUpper_eq, eq_comm, canonical, ← String.toList_inj,
      String.toList_ofList]
  refine ⟨?_, hread⟩
  simp only [hread, isRaw_iff]
  constructor
  · rintro ⟨a, rfl⟩
    refine ⟨a.raw, ⟨a, rfl⟩, a.length_text, ?_⟩
    rw [Base32.spells_iff (by rw [length_raw]; decide), toList_text]
  · rintro ⟨_, ⟨a, rfl⟩, -, hspells⟩
    rw [Base32.spells_iff (by rw [length_raw]; decide), ← toList_text] at hspells
    exact ⟨a, hspells.symm⟩

/-- A text with dashes and small letters, and the same text with its last character missing. -/
theorem ofText_accepts_canonical_spellings_counting :
    ofText "saaacaqdaqcq-mbyibefawdan--bYHRAEISCNQFDC2Y-" = .ok counting ∧
    (∃ bytes, IsRaw bytes ∧
      Base32.Spells "SAAACAQDAQCQMBYIBEFAWDANBYHRAEISCNQFDC2Y".toList bytes) ∧
    ¬ ∃ a, ofText "saaacaqdaqcq-mbyibefawdan--bYHRAEISCNQFDC2-" = .ok a := by
  obtain ⟨haccepted, hread⟩ := ofText_accepts_canonical_spellings
    "saaacaqdaqcq-mbyibefawdan--bYHRAEISCNQFDC2Y-"
    "SAAACAQDAQCQMBYIBEFAWDANBYHRAEISCNQFDC2Y".toList (by decide)
  have hcounting := (hread counting).2 (congrArg String.toList counting_text)
  obtain ⟨bytes, hraw, _, hspells⟩ := haccepted.1 ⟨counting, hcounting⟩
  refine ⟨hcounting, ⟨bytes, hraw, hspells⟩, fun hshort => ?_⟩
  obtain ⟨_, _, hlength, _⟩ := (ofText_accepts_canonical_spellings
    "saaacaqdaqcq-mbyibefawdan--bYHRAEISCNQFDC2-"
    "SAAACAQDAQCQMBYIBEFAWDANBYHRAEISCNQFDC2".toList (by decide)).1.1 hshort
  revert hlength
  decide

end Address

end DriveChain
