import DriveChain.Account.Document
import DriveChain.Proofs.Base32
import DriveChain.Proofs.HeaderBytes

/-!
# An address comes back from all its written forms

An address holds its network and a digest, and its forms follow from these: the raw
bytes, their hexadecimal digits, the text in base 32 and the text in groups. Each form
determines the address it is written from. The raw bytes do because the network is one
of them, the digest stands behind it, and the rest is checked. The text does because 25
bytes are five whole groups, so base 32 loses nothing either way.

What is read as a text is judged by its spelling in upper case and without dashes. A
text *respells* another one if it is that text with dashes put in and letters put in
lower case. The texts that read as an address are just those that respell the one text
it has, so dashes and case are all the freedom there is.
-/

namespace DriveChain

namespace Address

variable {a b : Address} {bytes : List UInt8}

/-! ## Raw bytes -/

theorem length_versioned (a : Address) : a.versioned.length = 21 := by
  rw [versioned, List.length_cons, a.digest.length_bytes]

theorem length_raw (a : Address) : a.raw.length = 25 := by
  rw [raw, List.length_append, length_versioned, (checksum a.versioned).length_bytes]

theorem take_raw (a : Address) : a.raw.take 21 = a.versioned :=
  List.take_left' a.length_versioned

theorem drop_raw (a : Address) : a.raw.drop 21 = (checksum a.versioned).bytes :=
  List.drop_left' a.length_versioned

/-- An address is read from its raw bytes and from no others. -/
theorem ofRaw_ok : ofRaw bytes = .ok a ↔ bytes = a.raw := by
  constructor
  · intro h
    unfold ofRaw at h
    split at h
    case isFalse => cases h
    case isTrue hlen =>
      obtain ⟨first, rest, rfl⟩ := List.exists_cons_of_length_eq_add_one hlen
      split at h
      case isFalse => cases h
      case isTrue hsum =>
        split at h
        case h_1 => cases h
        case h_2 network hnetwork =>
          cases h
          have hversioned : (first :: rest).take 21 = network.byte :: rest.take 20 := by
            rw [← Network.ofByte_ok.1 hnetwork]
            rfl
          rw [raw, versioned]
          simp only [List.drop_one, List.tail_cons]
          rw [← hversioned, hsum, List.take_append_drop]
  · rintro rfl
    have hbyte : Network.ofByte (a.raw.headD 0) = .ok a.network := Network.ofByte_ok.2 rfl
    have hdigest : (a.raw.drop 1).take 20 = a.digest.bytes :=
      List.take_left' a.digest.length_bytes
    unfold ofRaw
    rw [dif_pos a.length_raw, if_pos (by rw [take_raw, drop_raw])]
    split
    case h_1 e he => rw [hbyte] at he; cases he
    case h_2 network hnetwork =>
      rw [hbyte] at hnetwork
      cases hnetwork
      exact congrArg Except.ok (congrArg (mk a.network) (Octets.ext hdigest))

/-! ## The text -/

theorem toList_text (a : Address) : a.text.toList = Base32.encode a.raw :=
  String.toList_ofList

theorem decode?_text (a : Address) : Base32.decode? a.text.toList = some a.raw := by
  rw [toList_text, Base32.decode?_encode (by rw [length_raw]; decide)]

theorem mem_alphabet_of_mem_text {c : Char} (hc : c ∈ a.text.toList) : c ∈ Base32.alphabet := by
  rw [toList_text] at hc
  exact Base32.mem_alphabet_of_mem_encode hc

theorem length_text (a : Address) : a.text.toList.length = 40 := by
  rw [toList_text, Base32.length_encode, length_raw]

theorem text_inj (h : a.text = b.text) : a = b := by
  have hraw : b.raw = a.raw := by
    rw [← Option.some_inj, ← decode?_text, ← decode?_text, h]
  exact Except.ok.inj ((ofRaw_ok.2 rfl).symm.trans (ofRaw_ok.2 hraw.symm))

theorem letter_eq (network : Network) :
    Base32.symbol (network.byte.toNat / 8) = network.letter := by
  cases network <;> rfl

/-- A text reads as an address if its canonical spelling is the text of the address. -/
theorem ofText_ok {text : String} : ofText text = .ok a ↔ canonical text = a.text := by
  unfold ofText
  simp only []
  constructor
  · intro h
    split at h
    case isTrue => cases h
    case isFalse hsize =>
      split at h
      case h_1 => cases h
      case h_2 bytes hbytes =>
        -- the size is counted in bytes, and only symbols of the alphabet take one each
        have hlen := Base32.utf8ByteSize_ofList (Base32.mem_alphabet_of_decode? hbytes)
        rw [String.ofList_toList, Decidable.not_not.1 hsize] at hlen
        rw [Address.text, ← ofRaw_ok.1 h,
          Base32.encode_of_decode? (by rw [← hlen]; decide) hbytes, String.ofList_toList]
  · intro h
    have hsize := Base32.utf8ByteSize_ofList fun _ => mem_alphabet_of_mem_text (a := a)
    rw [String.ofList_toList, length_text] at hsize
    rw [h, hsize, if_neg (by simp), decode?_text]
    exact ofRaw_ok.2 rfl

/-! ## Other spellings -/

/-- The second text is the first with dashes put in and letters put in lower case. -/
inductive Respells : List Char → List Char → Prop where
  | nil : Respells [] []
  | dash {text other : List Char} : Respells text other → Respells text ('-' :: other)
  | keep {text other : List Char} (c : Char) :
      Respells text other → Respells (c :: text) (c :: other)
  | lower {text other : List Char} (c : Char) :
      Respells text other → Respells (c :: text) (c.toLower :: other)

theorem forall_letter {p : Char → Prop} (h : ∀ k : Fin 26, p (Char.ofNat (97 + k))) {c : Char}
    (hc : 'a' ≤ c ∧ c ≤ 'z') : p c := by
  have hfrom : 97 ≤ c.toNat := UInt32.le_iff_toNat_le.1 hc.1
  have hto : c.toNat ≤ 122 := UInt32.le_iff_toNat_le.1 hc.2
  have hk := h ⟨c.toNat - 97, by omega⟩
  simp only [Nat.add_sub_cancel' hfrom, Char.ofNat_toNat] at hk
  exact hk

theorem toUpper_of_not_letter {c : Char} (hc : ¬('a' ≤ c ∧ c ≤ 'z')) : c.toUpper = c := by
  unfold Char.toUpper
  exact dif_neg hc

theorem eq_or_eq_toLower_toUpper (c : Char) : c = c.toUpper ∨ c = c.toUpper.toLower := by
  by_cases hc : 'a' ≤ c ∧ c ≤ 'z'
  · exact Or.inr (forall_letter (p := fun c => c = c.toUpper.toLower) (by decide) hc)
  · exact Or.inl (toUpper_of_not_letter hc).symm

theorem respells_iff {text other : List Char} (h : ∀ c ∈ text, c ∈ Base32.alphabet) :
    Respells text other ↔ (other.filter (· ≠ '-')).map Char.toUpper = text := by
  have hsymbol : ∀ c ∈ Base32.alphabet,
      c ≠ '-' ∧ c.toUpper = c ∧ c.toLower ≠ '-' ∧ c.toLower.toUpper = c :=
    Base32.forall_alphabet (by decide)
  constructor
  · intro hother
    induction hother with
    | nil => rfl
    | dash _ ih => exact ih h
    | keep c _ ih =>
        obtain ⟨hdash, hupper, -⟩ := hsymbol c (h c List.mem_cons_self)
        rw [List.filter_cons_of_pos (by simpa using hdash), List.map_cons, hupper,
          ih fun c hc => h c (List.mem_cons_of_mem _ hc)]
    | lower c _ ih =>
        obtain ⟨-, -, hdash, hupper⟩ := hsymbol c (h c List.mem_cons_self)
        rw [List.filter_cons_of_pos (by simpa using hdash), List.map_cons, hupper,
          ih fun c hc => h c (List.mem_cons_of_mem _ hc)]
  · rintro rfl
    clear h
    induction other with
    | nil => exact .nil
    | cons c rest ih =>
        by_cases hdash : c = '-'
        · subst hdash
          exact .dash ih
        · rw [List.filter_cons_of_pos (by simpa using hdash), List.map_cons]
          obtain hc | hc := eq_or_eq_toLower_toUpper c
          · have hkeep := Respells.keep c ih
            rwa [← hc]
          · have hlower := Respells.lower c.toUpper ih
            rwa [← hc] at hlower

theorem respells_text {text : String} :
    Respells a.text.toList text.toList ↔ canonical text = a.text := by
  rw [respells_iff fun _ => mem_alphabet_of_mem_text, canonical, ← String.toList_inj,
    String.toList_ofList]

theorem Respells.refl : ∀ text : List Char, Respells text text
  | [] => .nil
  | c :: rest => .keep c (refl rest)

theorem ofText_text (a : Address) : ofText a.text = .ok a :=
  ofText_ok.2 (respells_text.1 (.refl _))

theorem respells_dashed (distance : Nat) (text : List Char) :
    Respells text (dashed distance text) := by
  induction text generalizing distance with
  | nil => cases distance <;> exact .nil
  | cons c rest ih =>
      cases distance with
      | zero => exact .dash (.keep c (ih 5))
      | succ distance => exact .keep c (ih distance)

/-! ## All forms -/

theorem decoder_ok {source : Json.Source} {value : Json} :
    decoder source value = .ok a ↔ ∃ text, value = .string text ∧ ofText text = .ok a := by
  unfold decoder Json.Decoder.check Json.Decoder.text
  cases value with
  | string text => cases h : ofText text <;> simp [h]
  | _ => simp

/-- What the forms of an address look like. -/
structure WellFormed (a : Address) : Prop where
  length_text : a.text.toList.length = 40
  alphabet : ∀ c ∈ a.text.toList, c ∈ Base32.alphabet
  /-- The raw bytes are those behind the text. -/
  decoded : Base32.decode? a.text.toList = some a.raw
  length_raw : a.raw.length = 25
  checked : a.raw.drop 21 = (checksum (a.raw.take 21)).bytes
  byte : a.raw.head? = some a.network.byte
  letter : a.text.toList.head? = some a.network.letter

/-- Which written forms an address is read from. -/
structure ReadBack (a : Address) : Prop where
  raw : ∀ bytes, ofRaw bytes = .ok a ↔ bytes = a.raw
  hex : ofHex a.hex = .ok a
  text : ∀ text, ofText text = .ok a ↔ Respells a.text.toList text.toList
  pretty : ofText a.pretty = .ok a
  document : ∀ source value, decoder source value = .ok a ↔
    ∃ text, value = .string text ∧ Respells a.text.toList text.toList

theorem wellFormed (a : Address) : a.WellFormed where
  length_text := a.length_text
  alphabet := fun _ => mem_alphabet_of_mem_text
  decoded := a.decode?_text
  length_raw := a.length_raw
  checked := by rw [take_raw, drop_raw]
  byte := rfl
  letter := by
    have hrest : 4 ≤ (a.digest.bytes ++ (checksum a.versioned).bytes).length := by
      rw [List.length_append, a.digest.length_bytes]
      omega
    rw [toList_text, ← letter_eq]
    exact Base32.head?_encode hrest

theorem readBack (a : Address) : a.ReadBack where
  raw := fun _ => ofRaw_ok
  hex := by
    unfold ofHex hex
    rw [Hex.decode_encode]
    exact ofRaw_ok.2 rfl
  text := fun _ => ofText_ok.trans respells_text.symm
  pretty := by
    rw [ofText_ok, ← respells_text, pretty, String.toList_ofList]
    exact respells_dashed 6 _
  document := fun source value => by
    rw [decoder_ok]
    exact exists_congr fun _ => and_congr_right fun _ => ofText_ok.trans respells_text.symm

/-- Every address, whether made from a key or read from one of its forms, is well formed and comes
back from all of them. No two share a text, so the text alone tells the network. -/
theorem forms_of_address (a : Address) :
    a.WellFormed ∧ a.ReadBack ∧ ∀ b : Address, a.text = b.text → a = b :=
  ⟨a.wellFormed, a.readBack, fun _ => text_inj⟩

/-- The address on the test network whose digest counts from zero. -/
def counting : Address :=
  ⟨.mijinTest, ⟨(List.range 20).map UInt8.ofNat, rfl⟩⟩

theorem counting_text : counting.text = "SAAACAQDAQCQMBYIBEFAWDANBYHRAEISCNQFDC2Y" := by
  decide +kernel

/-- It comes back from a text with dashes and small letters in other places than it is shown with, and
no address on another network has its text. -/
theorem forms_of_address_counting :
    counting.WellFormed ∧ counting.ReadBack ∧
    Respells counting.text.toList "saaacaqdaqcq-mbyibefawdan--bYHRAEISCNQFDC2Y-".toList ∧
    ofText "saaacaqdaqcq-mbyibefawdan--bYHRAEISCNQFDC2Y-" = .ok counting ∧
    ∀ network, network ≠ .mijinTest → (Address.mk network counting.digest).text ≠ counting.text := by
  obtain ⟨hwell, hback, hinj⟩ := forms_of_address counting
  have hrespells : Respells counting.text.toList
      "saaacaqdaqcq-mbyibefawdan--bYHRAEISCNQFDC2Y-".toList := by
    rw [respells_text, counting_text]
    decide
  refine ⟨hwell, hback, hrespells, (hback.text _).2 hrespells, fun network hne heq => ?_⟩
  exact hne (congrArg Address.network (hinj _ heq.symm)).symm

end Address

end DriveChain
