import DriveChain.Json.Number

/-!
# Reading JSON from bytes

The reader goes over the bytes once and always gives a tree. It needs no more steps than there are
bytes, since every step but the last takes at least one.
-/

namespace DriveChain

namespace Json

/-- Whether a byte is a blank, a tab or the end of a line. -/
def isBlank (b : UInt8) : Bool :=
  b == 32 || b == 9 || b == 10 || b == 13

/-- What stands behind the blanks at the beginning. -/
def skipBlanks : List UInt8 → List UInt8
  | [] => []
  | b :: rest => if isBlank b then skipBlanks rest else b :: rest

/-- A value and the bytes behind it, unless the text breaks off in the value. -/
structure Read where
  value : Json
  rest : Option (List UInt8)

/-- Nothing can be read, and nothing is left to read on from. -/
def Read.stop (fault : Fault) : Read :=
  ⟨.broken fault, none⟩

/-- Expects the given bytes. -/
def readWord (value : Json) : List UInt8 → List UInt8 → Read
  | [], rest => ⟨value, some rest⟩
  | _ :: _, [] => .stop .endInValue
  | expected :: word, b :: rest => if b == expected then readWord value word rest else .stop .noWord

/-! ## Numbers -/

/-- The value of a decimal digit. -/
def digit? (b : UInt8) : Option Nat :=
  if 48 ≤ b.toNat ∧ b.toNat ≤ 57 then some (b.toNat - 48) else none

/-- The digits at the front and what follows them. -/
def spanDigits : List UInt8 → List Nat × List UInt8
  | [] => ([], [])
  | b :: rest =>
    match digit? b with
    | none => ([], b :: rest)
    | some d =>
      let (ds, rest) := spanDigits rest
      (d :: ds, rest)

/-- A number that lacks a digit here. At the end of the text, who reads it wants more text, and who
passes over it finds no number. -/
def lackingDigit (rest : List UInt8) : Read :=
  match rest with
  | [] => ⟨.damaged .endInValue (.broken .badNumber), none⟩
  | _ => .stop .badNumber

/-- Reads on from behind the letter of an exponent, which may have a sign and needs a digit. -/
def readExponent (negative : Bool) (whole : List Nat) (fraction : Option (List Nat))
    (bytes : List UInt8) : Read :=
  let (down, bytes) := match bytes with
    | 43 :: rest => (false, rest)
    | 45 :: rest => (true, rest)
    | _ => (false, bytes)
  match spanDigits bytes with
  | ([], rest) => lackingDigit rest
  | (ds, rest) => ⟨ofParts negative whole fraction (some (down, ds)), some rest⟩

/-- What may follow the digits before the point: a fraction, an exponent, or neither. -/
def readTail (negative : Bool) (whole : List Nat) : List UInt8 → Read
  | 46 :: rest =>
    match spanDigits rest with
    | ([], rest) => lackingDigit rest
    | (ds, 101 :: rest) => readExponent negative whole (some ds) rest
    | (ds, 69 :: rest) => readExponent negative whole (some ds) rest
    | (ds, rest) => ⟨ofParts negative whole (some ds) none, some rest⟩
  | 101 :: rest => readExponent negative whole none rest
  | 69 :: rest => readExponent negative whole none rest
  | rest => ⟨ofParts negative whole none none, some rest⟩

/-- A number from its first digit on; a leading zero stands alone before the point. -/
def readDigits (negative : Bool) (bytes : List UInt8) : Read :=
  match spanDigits bytes with
  | ([], rest) => lackingDigit rest
  | (0 :: _ :: _, _) => .stop .badNumber
  | (ds, rest) => readTail negative ds rest

/-! ## Strings -/

/-- The state of a string that is being read: its bytes so far, the last one first; why it is no
text, if it has turned out so; and the first half of a surrogate pair, if one was just read. A
question mark stands in the bytes for an escape that stands for no character. -/
structure Piece where
  bytes : List UInt8
  flaw : Option Fault
  half : Option Nat

namespace Piece

/-- Why a string is no text if anything but a second half follows. -/
def flawNext (p : Piece) : Option Fault :=
  p.flaw.or (p.half.map fun _ => .halfSurrogate)

/-- The bytes so far if anything but a second half follows. -/
def bytesNext (p : Piece) : List UInt8 :=
  if p.half.isSome then 63 :: p.bytes else p.bytes

/-- Takes in bytes as they stand. -/
def push (p : Piece) (more : List UInt8) : Piece :=
  ⟨more.reverse ++ p.bytesNext, p.flawNext, none⟩

/-- The string is no text from here on, unless it was none before. -/
def spoil (p : Piece) (flaw : Fault) : Piece :=
  ⟨63 :: p.bytes, p.flaw.or (some flaw), none⟩

/-- Takes in a number of four hexadecimal digits. -/
def pushUnit (p : Piece) (n : Nat) : Piece :=
  match p.half with
  | some high =>
    if 0xDC00 ≤ n ∧ n ≤ 0xDFFF then
      let c := Char.ofNat (0x10000 + (high - 0xD800) * 0x400 + (n - 0xDC00))
      ⟨(String.utf8EncodeChar c).reverse ++ p.bytes, p.flaw, none⟩
    else p.spoil .loneSurrogate
  | none =>
    if 0xD800 ≤ n ∧ n ≤ 0xDBFF then ⟨p.bytes, p.flaw, some n⟩
    else if 0xDC00 ≤ n ∧ n ≤ 0xDFFF then p.spoil .loneSurrogate
    else ⟨(String.utf8EncodeChar (Char.ofNat n)).reverse ++ p.bytes, p.flaw, none⟩

end Piece

/-- The value of one hexadecimal digit of an escape. -/
def hexDigit? (b : UInt8) : Option Nat :=
  let n := b.toNat
  if 48 ≤ n ∧ n ≤ 57 then some (n - 48)
  else if 65 ≤ n ∧ n ≤ 70 then some (n - 55)
  else if 97 ≤ n ∧ n ≤ 102 then some (n - 87)
  else none

/-- The number of four hexadecimal digits. -/
def hexUnit? (a b c d : UInt8) : Option Nat := do
  let a ← hexDigit? a
  let b ← hexDigit? b
  let c ← hexDigit? c
  let d ← hexDigit? d
  return ((a * 16 + b) * 16 + c) * 16 + d

/-- The byte that a one-letter escape stands for. -/
def escape? (b : UInt8) : Option UInt8 :=
  match b.toNat with
  | 34 => some 34
  | 47 => some 47
  | 92 => some 92
  | 98 => some 8
  | 102 => some 12
  | 110 => some 10
  | 114 => some 13
  | 116 => some 9
  | _ => none

/-- A string that has been read to its closing quote, or one that breaks off. Either may be no
text, even if its bytes are Unicode. -/
inductive Quoted where
  | text (s : String) (rest : List UInt8)
  | flawed (flaw : Fault) (isUnicode : Bool) (rest : List UInt8)
  | stopped (flaw : Option Fault) (fault : Fault)

/-- Reads on from behind the opening quote. -/
def readQuoted (p : Piece) : List UInt8 → Quoted
  | [] => .stopped p.flaw .endInString
  | 34 :: rest =>
    match String.fromUTF8? (ByteArray.mk p.bytes.reverse.toArray), p.flawNext with
    | some s, none => .text s rest
    | some _, some flaw => .flawed flaw true rest
    | none, flaw => .flawed (flaw.getD .badCodePoint) false rest
  | 92 :: [] => .stopped p.flaw .endInString
  | 92 :: 117 :: a :: b :: c :: d :: rest =>
    match hexUnit? a b c d with
    | some n => readQuoted (p.pushUnit n) rest
    | none => .stopped p.flaw .badEscape
  | 92 :: 117 :: _ => .stopped p.flaw .endInString
  | 92 :: b :: rest =>
    match escape? b with
    | some c => readQuoted (p.push [c]) rest
    | none => .stopped p.flawNext .badEscape
  | b :: rest =>
    if b.toNat < 32 then .stopped p.flawNext .controlCharacter
    else readQuoted (p.push [b]) rest

/-- What one passes over in the place of a string that is no text, if `value` follows it. -/
def passedString (isUnicode : Bool) (value : Json) : Json :=
  if isUnicode then value else .damaged .badCodePoint value

/-- Reads on from behind the opening quote, to a string or to what is wrong with it. -/
def readString (bytes : List UInt8) : Read :=
  match readQuoted ⟨[], none, none⟩ bytes with
  | .text s rest => ⟨.string s, some rest⟩
  | .flawed flaw isUnicode rest => ⟨.damaged flaw (passedString isUnicode .null), some rest⟩
  | .stopped (some flaw) fault => ⟨.damaged flaw (.broken fault), none⟩
  | .stopped none fault => .stop fault

/-! ## Values -/

mutual

/-- Reads a value, within a number of steps. -/
def readValue : (steps : Nat) → List UInt8 → Read
  | 0, _ => .stop .endInValue
  | steps + 1, bytes =>
    match skipBlanks bytes with
    | [] => .stop .endInValue
    | b :: rest =>
      match b.toNat with
      | 110 => readWord .null [117, 108, 108] rest
      | 116 => readWord (.bool true) [114, 117, 101] rest
      | 102 => readWord (.bool false) [97, 108, 115, 101] rest
      | 34 => readString rest
      | 45 => readDigits true rest
      | 91 =>
        let (items, rest) := readItems steps true rest
        ⟨.array items, rest⟩
      | 123 =>
        let (members, rest) := readMembers steps true rest
        ⟨.object members, rest⟩
      | _ => if (digit? b).isSome then readDigits false (b :: rest) else .stop .noValue

/-- Reads the items behind an opening bracket, or behind a comma. -/
def readItems : (steps : Nat) → (first : Bool) → List UInt8 → List Json × Option (List UInt8)
  | 0, _, _ => ([.unclosed .endInList], none)
  | steps + 1, first, bytes =>
    match skipBlanks bytes with
    | [] => ([if first then .unclosed .endInList else .broken .endInValue], none)
    | b :: rest =>
      if b == 93 then
        if first then ([], some rest) else ([.broken .trailingComma], none)
      else
        let item := readValue steps (b :: rest)
        match item.rest with
        | none => ([item.value], none)
        | some rest =>
          match skipBlanks rest with
          | 44 :: rest =>
            let (items, rest) := readItems steps false rest
            (item.value :: items, rest)
          | 93 :: rest => ([item.value], some rest)
          | [] => ([item.value, .unclosed .endInList], none)
          | _ => ([item.value, .unclosed .noListEnd], none)

/-- Reads the members behind an opening brace, or behind a comma. -/
def readMembers : (steps : Nat) → (first : Bool) → List UInt8 →
    List (String × Json) × Option (List UInt8)
  | 0, _, _ => ([("", .unclosed .endInObject)], none)
  | steps + 1, first, bytes =>
    match skipBlanks bytes with
    | [] => ([("", .unclosed (if first then .endInObject else .endInValue))], none)
    | b :: rest =>
      if b == 125 then
        if first then ([], some rest) else ([("", .unclosed .trailingComma)], none)
      else if b != 34 then ([("", .unclosed .noName)], none)
      else
        match readQuoted ⟨[], none, none⟩ rest with
        | .stopped (some flaw) fault => ([("", .misnamed flaw (.broken fault))], none)
        | .stopped none fault => ([("", .unclosed fault)], none)
        | .flawed flaw isUnicode rest =>
          let value := readMember steps rest
          readMoreMembers steps "" (.misnamed flaw (passedString isUnicode value.value)) value.rest
        | .text name rest =>
          let value := readMember steps rest
          readMoreMembers steps name value.value value.rest

/-- Reads the colon behind a name and the value behind the colon. -/
def readMember : (steps : Nat) → List UInt8 → Read
  | 0, _ => .stop .endInObject
  | steps + 1, bytes =>
    match skipBlanks bytes with
    | 58 :: rest => readValue steps rest
    | [] => .stop .endInObject
    | _ => .stop .noColon

/-- Reads what follows a member. -/
def readMoreMembers : (steps : Nat) → String → Json → Option (List UInt8) →
    List (String × Json) × Option (List UInt8)
  | 0, name, value, _ => ([(name, value), ("", .unclosed .endInObject)], none)
  | _ + 1, name, value, none => ([(name, value)], none)
  | steps + 1, name, value, some rest =>
    match skipBlanks rest with
    | 44 :: rest =>
      let (members, rest) := readMembers steps false rest
      ((name, value) :: members, rest)
    | 125 :: rest => ([(name, value)], some rest)
    | [] => ([(name, value), ("", .unclosed .endInObject)], none)
    | _ => ([(name, value), ("", .unclosed .noObjectEnd)], none)

end

/-- A text that has been read: its value, and whether anything but blanks follows it. -/
structure Document where
  root : Json
  trailing : Bool

/-- Reads a whole text. -/
def Document.ofBytes (bytes : List UInt8) : Document :=
  let read := readValue (4 * bytes.length + 4) bytes
  match read.rest with
  | none => ⟨read.value, false⟩
  | some rest => ⟨read.value, !(skipBlanks rest).isEmpty⟩

end Json

end DriveChain
