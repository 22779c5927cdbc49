import DriveChain.Asset.Identifier
import DriveChain.Proofs.Base32

/-!
# How identifiers are written

An identifier is written as sixteen upper-case digits, and read from sixteen digits in
either case. So reading goes through upper case: a text is that of a number if, in
upper case, it is what the number is written as.

The reader takes one more kind of text. A plus sign in front is passed over, and since
the length is judged with the sign, the fifteen digits behind it are read as if a zero
stood in its place.
-/

namespace DriveChain

/-- A hexadecimal digit in either case. -/
def Hex.IsDigit (c : Char) : Prop :=
  '0' ≤ c ∧ c ≤ '9' ∨ 'A' ≤ c ∧ c ≤ 'F' ∨ 'a' ≤ c ∧ c ≤ 'f'

/-- A text of so many hexadecimal digits. -/
def Hex.IsDigits (count : Nat) (text : String) : Prop :=
  text.toList.length = count ∧ ∀ c ∈ text.toList, Hex.IsDigit c

namespace Hex

instance (c : Char) : Decidable (IsDigit c) :=
  inferInstanceAs (Decidable (_ ∨ _ ∨ _))

-- Over the text and not over all characters there are.
instance (count : Nat) (text : String) : Decidable (IsDigits count text) :=
  @instDecidableAnd _ _ _ (List.decidableBAll IsDigit text.toList)

/-- The digits are the characters that are written, but for their case. -/
theorem isDigit_iff {c : Char} : IsDigit c ↔ ∃ d < 16, c.toUpper = digit d := by
  have hall : ∀ n : Fin 128,
      IsDigit (Char.ofNat n) ↔ ∃ d : Fin 16, (Char.ofNat n).toUpper = digit d := by
    decide +kernel
  rcases utf8EncodeChar_cases c with ⟨n, rfl, _⟩ | ⟨hhigh, _⟩
  · rw [hall n]
    refine ⟨fun h => ?_, fun h => ?_⟩
    · obtain ⟨d, hd⟩ := h
      exact ⟨d, d.isLt, hd⟩
    · obtain ⟨d, hlt, hd⟩ := h
      exact ⟨⟨d, hlt⟩, hd⟩
  · refine ⟨fun h => ?_, fun h => ?_⟩
    · have hf : c.toNat ≤ 'f'.toNat := by
        rcases h with ⟨_, h⟩ | ⟨_, h⟩ | ⟨_, h⟩
        · exact Nat.le_trans h (by decide)
        · exact Nat.le_trans h (by decide)
        · exact h
      have : 'f'.toNat = 102 := rfl
      omega
    · obtain ⟨d, hlt, hd⟩ := h
      have hascii := toNat_digit_lt hlt
      rw [← hd, toUpper_eq_self hhigh] at hascii
      omega

theorem forall_isDigit_iff {text : List Char} :
    (∀ c ∈ text, IsDigit c) ↔
      ∃ ds : List Nat, (∀ d ∈ ds, d < 16) ∧ text.map Char.toUpper = ds.map digit := by
  induction text with
  | nil => exact ⟨fun _ => ⟨[], by simp, rfl⟩, fun _ => by simp⟩
  | cons c text ih =>
      rw [List.forall_mem_cons, ih, isDigit_iff, List.map_cons]
      refine ⟨fun h => ?_, fun h => ?_⟩
      · obtain ⟨⟨d, hd, hc⟩, ds, hds, htext⟩ := h
        refine ⟨d :: ds, List.forall_mem_cons.2 ⟨hd, hds⟩, ?_⟩
        rw [List.map_cons, hc, htext]
      · obtain ⟨ds, hds, heq⟩ := h
        cases ds with
        | nil => cases heq
        | cons d ds =>
            rw [List.forall_mem_cons] at hds
            obtain ⟨hc, htext⟩ := List.cons.inj heq
            exact ⟨⟨d, hds.1, hc⟩, ds, hds.2, htext⟩

end Hex

namespace Identifier

/-! ## Sixteen digits -/

theorem digitsValue?_eq_some {bytes : List UInt8} {n : Nat} :
    digitsValue? bytes = some n ↔
      ∃ ds, bytes.mapM Hex.value? = some ds ∧ Digits.toNat 16 ds = n := by
  rw [digitsValue?, Option.map_eq_some_iff]

/-- A digit is read from every byte. -/
theorem length_of_mapM {bytes : List UInt8} {ds : List Nat}
    (h : bytes.mapM Hex.value? = some ds) : bytes.length = ds.length := by
  induction bytes generalizing ds with
  | nil =>
      cases h
      rfl
  | cons b bytes ih =>
      simp only [List.mapM_cons, Option.bind_eq_bind, Option.bind_eq_some_iff,
        Option.pure_def, Option.some.injEq] at h
      obtain ⟨d, _, ds', hds', rfl⟩ := h
      rw [List.length_cons, List.length_cons, ih hds']

/-- The texts that are an identifier's written form but for the case of their digits. -/
theorem toUpper_eq_hex {text : String} {id : UInt64} :
    text.toUpper = hex id ↔
      (utf8 text).length = 16 ∧ digitsValue? (utf8 text) = some id.toNat := by
  have hlist : text.toUpper = hex id ↔ text.toList.map Char.toUpper =
      (Digits.ofNat 16 16 id.toNat).map Hex.digit := by
    rw [← String.toList_inj, String.toUpper, String.toList_map, hex, Hex.number,
      String.toList_ofList]
  rw [hlist, digitsValue?_eq_some]
  refine ⟨fun h => ?_, fun h => ?_⟩
  · have hlt : id.toNat < 16 ^ 16 := id.toNat_lt
    have hread : (utf8 text).mapM Hex.value? = some (Digits.ofNat 16 16 id.toNat) :=
      Hex.mapM_value?_utf8.2 ⟨fun d hd => Digits.lt_of_mem_ofNat (by decide) hd, h⟩
    refine ⟨?_, _, hread, ?_⟩
    · rw [length_of_mapM hread, Digits.length_ofNat]
    · rw [Digits.toNat_ofNat, Nat.mod_eq_of_lt hlt]
  · obtain ⟨hlen, ds, hread, hvalue⟩ := h
    obtain ⟨hds, htext⟩ := Hex.mapM_value?_utf8.1 hread
    have hdigits := Digits.ofNat_toNat hds
    rw [← length_of_mapM hread, hlen, hvalue] at hdigits
    rw [htext, hdigits]

/-- Every text of sixteen digits is some identifier's. -/
theorem exists_toUpper_eq_hex {text : String} :
    (∃ id, text.toUpper = hex id) ↔ Hex.IsDigits 16 text := by
  rw [Hex.IsDigits, Hex.forall_isDigit_iff]
  refine ⟨fun h => ?_, fun h => ?_⟩
  · obtain ⟨id, h⟩ := h
    obtain ⟨hlen, hvalue⟩ := toUpper_eq_hex.1 h
    obtain ⟨ds, hread, _⟩ := digitsValue?_eq_some.1 hvalue
    obtain ⟨hds, htext⟩ := Hex.mapM_value?_utf8.1 hread
    refine ⟨?_, ds, hds, htext⟩
    have hsame := congrArg List.length htext
    rw [List.length_map, List.length_map] at hsame
    rw [hsame, ← length_of_mapM hread, hlen]
  · obtain ⟨hlen, ds, hds, htext⟩ := h
    have hread : (utf8 text).mapM Hex.value? = some ds := Hex.mapM_value?_utf8.2 ⟨hds, htext⟩
    have hsame := congrArg List.length htext
    rw [List.length_map, List.length_map, hlen] at hsame
    have hlt : Digits.toNat 16 ds < 2 ^ 64 := by
      have hbound := Digits.toNat_lt hds
      rw [← hsame] at hbound
      exact hbound
    refine ⟨UInt64.ofNat (Digits.toNat 16 ds), toUpper_eq_hex.2 ⟨?_, ?_⟩⟩
    · rw [length_of_mapM hread, hsame]
    · rw [UInt64.toNat_ofNat_of_lt' hlt]
      exact digitsValue?_eq_some.2 ⟨ds, hread, rfl⟩

/-! ## What is read -/

/-- Without a sign in front the digits alone decide. -/
theorem ofHex_ok_of_unsigned {text : String} {id : UInt64}
    (h : (utf8 text).head? ≠ some 43) : ofHex text = .ok id ↔ text.toUpper = hex id := by
  rw [toUpper_eq_hex]
  unfold ofHex
  simp only []
  by_cases hlen : (utf8 text).length = 16
  · rw [if_neg (not_not.2 hlen), if_neg h]
    cases hvalue : digitsValue? (utf8 text) with
    | none => simp
    | some n =>
        have hlt : n < 2 ^ 64 := by
          obtain ⟨ds, hread, rfl⟩ := digitsValue?_eq_some.1 hvalue
          have hbound := Digits.toNat_lt (Hex.mapM_value?_utf8.1 hread).1
          rw [← length_of_mapM hread, hlen] at hbound
          exact hbound
        simp only [hlen, Except.ok.injEq, Option.some.injEq, true_and]
        rw [← UInt64.toNat_inj, UInt64.toNat_ofNat_of_lt' hlt]
  · rw [if_pos hlen]
    simp [hlen]

/-- No digit is a sign. -/
theorem unsigned_of_toUpper {text : String} {id : UInt64} (h : text.toUpper = hex id) :
    (utf8 text).head? ≠ some 43 := by
  intro hplus
  obtain ⟨_, hvalue⟩ := toUpper_eq_hex.1 h
  obtain ⟨ds, hread, _⟩ := digitsValue?_eq_some.1 hvalue
  obtain ⟨rest, hrest⟩ := List.head?_eq_some_iff.1 hplus
  rw [hrest, List.mapM_cons] at hread
  cases hread

/-- An identifier is read from the digits that it is written in. -/
theorem ofHex_hex (id : UInt64) : ofHex (hex id) = .ok id := by
  have hupper : (hex id).toUpper = hex id := by
    have hall : ∀ k : Fin 16, (Hex.digit k).toUpper = Hex.digit k := by decide
    rw [← String.toList_inj, String.toUpper, String.toList_map, hex, Hex.number,
      String.toList_ofList, List.map_map]
    refine List.map_congr_left fun d hd => ?_
    exact hall ⟨d, Digits.lt_of_mem_ofNat (by decide) hd⟩
  exact (ofHex_ok_of_unsigned (unsigned_of_toUpper hupper)).2 hupper

theorem utf8_cons (c : Char) (rest : String) :
    utf8 (String.singleton c ++ rest) = String.utf8EncodeChar c ++ utf8 rest := by
  rw [utf8, utf8, String.toList_append, String.toList_singleton, List.singleton_append,
    List.flatMap_cons]

/-- A sign is read as if it were a zero. -/
theorem ofHex_plus (rest : String) : ofHex ("+" ++ rest) = ofHex ("0" ++ rest) := by
  have hplus : utf8 ("+" ++ rest) = 43 :: utf8 rest := utf8_cons '+' rest
  have hzero : utf8 ("0" ++ rest) = 48 :: utf8 rest := utf8_cons '0' rest
  have hvalue : digitsValue? (48 :: utf8 rest) = digitsValue? (utf8 rest) := by
    have hdigit : Hex.value? 48 = some 0 := by decide
    rw [digitsValue?, digitsValue?, List.mapM_cons, hdigit]
    cases (utf8 rest).mapM Hex.value? with
    | none => rfl
    | some ds =>
        show some (Digits.toNat 16 (0 :: ds)) = some (Digits.toNat 16 ds)
        rw [Digits.toNat_cons, Nat.mul_zero, Nat.zero_add]
  unfold ofHex
  simp only []
  rw [hplus, hzero, if_pos (show (43 :: utf8 rest).head? = some 43 from rfl),
    if_neg (show (48 :: utf8 rest).head? ≠ some 43 by simp), hvalue]
  rfl

theorem exists_plus {text : String} (h : (utf8 text).head? = some 43) :
    ∃ rest, text = "+" ++ rest := by
  have htext : text = String.ofList text.toList := String.ofList_toList.symm
  rw [htext]
  cases hlist : text.toList with
  | nil =>
      rw [utf8, hlist] at h
      cases h
  | cons c rest =>
      refine ⟨String.ofList rest, ?_⟩
      rw [utf8, hlist, List.flatMap_cons] at h
      rcases utf8EncodeChar_cases c with ⟨n, rfl, hbytes⟩ | ⟨_, b, tail, hbytes, hb⟩
      · have hall : ∀ n : Fin 128, UInt8.ofNat n = 43 → Char.ofNat n = '+' := by decide
        rw [hbytes] at h
        rw [hall n (Option.some.inj h)]
        exact String.ofList_cons
      · rw [hbytes] at h
        rw [Option.some.inj h] at hb
        exact absurd hb (by decide)

/-- An identifier is read from its written form in either case, and from one that has a
sign for a leading zero. -/
theorem ofHex_ok {text : String} {id : UInt64} :
    ofHex text = .ok id ↔
      text.toUpper = hex id ∨ ∃ rest, text = "+" ++ rest ∧ ("0" ++ rest).toUpper = hex id := by
  have hzero : ∀ rest, ofHex ("0" ++ rest) = .ok id ↔ ("0" ++ rest).toUpper = hex id := by
    intro rest
    refine ofHex_ok_of_unsigned ?_
    rw [show utf8 ("0" ++ rest) = 48 :: utf8 rest from utf8_cons '0' rest]
    simp
  refine ⟨fun h => ?_, fun h => ?_⟩
  · by_cases hplus : (utf8 text).head? = some 43
    · obtain ⟨rest, rfl⟩ := exists_plus hplus
      rw [ofHex_plus] at h
      exact .inr ⟨rest, rfl, (hzero rest).1 h⟩
    · exact .inl ((ofHex_ok_of_unsigned hplus).1 h)
  · rcases h with h | ⟨rest, rfl, h⟩
    · exact (ofHex_ok_of_unsigned (unsigned_of_toUpper h)).2 h
    · rw [ofHex_plus]
      exact (hzero rest).2 h

end Identifier

end DriveChain
