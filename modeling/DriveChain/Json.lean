import DriveChain.Sorted

/-!
# JSON documents

A document is a tree, and the tree also says where a text stops being JSON. Whoever reads such a
text in order meets the places one after another and reports the first thing that is wrong, be it
the text or the data. So the reader of a text never fails: it gives a tree that ends early.

A tree without such places is *whole*. Whole trees are what documents are made of; the other four
shapes occur only in a tree that was read from a text.
-/

namespace DriveChain

namespace Json

/-- What is wrong with a text that is not JSON. The first four are about a text that ends too early. -/
inductive Fault where
  | endInList
  | endInObject
  | endInString
  | endInValue
  | noColon
  | noListEnd
  | noObjectEnd
  | noWord
  | noValue
  | noName
  | badEscape
  | badNumber
  | hugeNumber
  | badCodePoint
  | controlCharacter
  | loneSurrogate
  | halfSurrogate
  | trailingComma
  | trailingText
  | tooDeep
deriving DecidableEq, Repr

namespace Fault

/-- Whether more text could mend it. -/
def isEnd : Fault → Bool
  | .endInList => true
  | .endInObject => true
  | .endInString => true
  | .endInValue => true
  | _ => false

/-- What is said about the fault. -/
def message : Fault → String
  | .endInList => "EOF while parsing a list"
  | .endInObject => "EOF while parsing an object"
  | .endInString => "EOF while parsing a string"
  | .endInValue => "EOF while parsing a value"
  | .noColon => "expected `:`"
  | .noListEnd => "expected `,` or `]`"
  | .noObjectEnd => "expected `,` or `\x7d`"
  | .noWord => "expected ident"
  | .noValue => "expected value"
  | .noName => "key must be a string"
  | .badEscape => "invalid escape"
  | .badNumber => "invalid number"
  | .hugeNumber => "number out of range"
  | .badCodePoint => "invalid unicode code point"
  | .controlCharacter => "control character (\\u0000-\\u001F) found while parsing a string"
  | .loneSurrogate => "lone leading surrogate in hex escape"
  | .halfSurrogate => "unexpected end of hex escape"
  | .trailingComma => "trailing comma"
  | .trailingText => "trailing characters"
  | .tooDeep => "recursion limit exceeded"

end Fault

/-- A number in a document. Whole numbers are kept if 64 bits hold them, with or without a sign;
every other number is kept as the digits and the power of ten it is written with. -/
inductive Number where
  | integer (n : Int)
  | decimal (negative : Bool) (digits : Nat) (exponent : Int)
deriving DecidableEq, Repr

end Json

/-- A value of a document, or a place in a text where the document stops being one. -/
inductive Json where
  | null
  | bool (b : Bool)
  | number (n : Json.Number)
  | string (s : String)
  | array (items : List Json)
  | object (members : List (String × Json))
  /-- Reading the value meets a fault; who passes over it fares as with `passed`. -/
  | damaged (fault : Json.Fault) (passed : Json)
  /-- The value of a member whose name is no text, for the given reason. -/
  | misnamed (fault : Json.Fault) (value : Json)
  /-- Nothing can be read here. -/
  | broken (fault : Json.Fault)
  /-- In the place of an item or a member: neither that nor the closing bracket follows. -/
  | unclosed (fault : Json.Fault)
deriving Inhabited

namespace Json

/-- A number that is not negative. -/
def natural (n : Nat) : Json :=
  .number (.integer n)

/-- A 64-bit number as a pair of words, the low one first. -/
def words (low high : UInt32) : Json :=
  .array [natural low.toNat, natural high.toNat]

/-- The value of a member of an object. -/
def get? (name : String) : Json → Option Json
  | .object members => members.lookup name
  | _ => none

/-- The object with the given members, in the order of their names. Of members of the same name the
last one counts. -/
def ofMembers (members : List (String × Json)) : Json :=
  .object (Sorted.ofList (fun a b => decide (a < b)) members)

mutual

/-- The fault that is met on the way over a value. -/
def pass : Json → Except Fault Unit
  | .array items => passItems items
  | .object members => passMembers members
  | .damaged _ passed => pass passed
  | .misnamed _ value => pass value
  | .broken fault => .error fault
  | .unclosed fault => .error fault
  | _ => .ok ()

/-- The fault that is met on the way over items. -/
def passItems : List Json → Except Fault Unit
  | [] => .ok ()
  | item :: rest =>
    match pass item with
    | .error fault => .error fault
    | .ok () => passItems rest

/-- The fault that is met on the way over members. -/
def passMembers : List (String × Json) → Except Fault Unit
  | [] => .ok ()
  | (_, value) :: rest =>
    match pass value with
    | .error fault => .error fault
    | .ok () => passMembers rest

end

mutual

/-- Whether all strings in a value are Unicode in the text they were read from. -/
def isUnicode : Json → Bool
  | .array items => areUnicode items
  | .object members => membersAreUnicode members
  | .damaged fault passed => fault != .badCodePoint && isUnicode passed
  | .misnamed fault value => fault != .badCodePoint && isUnicode value
  | _ => true

/-- Whether all strings in the items are Unicode. -/
def areUnicode : List Json → Bool
  | [] => true
  | item :: rest => isUnicode item && areUnicode rest

/-- Whether all strings in the members are Unicode. -/
def membersAreUnicode : List (String × Json) → Bool
  | [] => true
  | (_, value) :: rest => isUnicode value && membersAreUnicode rest

end

end Json

end DriveChain
