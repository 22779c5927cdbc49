import DriveChain.Json.Parser
import DriveChain.Quantity

/-!
# Reading typed values out of a document

A decoder goes over a value in order and stops at the first thing that is wrong. Records are read
member by member in the order of the document: a wrong value is reported where it stands, a missing
one only when the record has ended. A record may also be an array of its fields.

Decoders read a text while it is being parsed, a parsed value, or the members that another record
left over. The three differ only in what they say of an array with too many items.
-/

namespace DriveChain

namespace Json

/-- Where a value comes from. -/
inductive Source where
  | text
  | value
  | leftover
deriving DecidableEq, Repr

/-- What makes a typed value of a value that comes from some source. -/
abbrev Decoder (α : Type) := Source → Json → Except Error α

/-- The error about items behind the last one that is wanted. -/
def Source.surplus (source : Source) (taken total : Nat) : Error :=
  match source with
  | .text => .fault .trailingText
  | .value => .wrongLength total "fewer elements in array"
  | .leftover =>
    .wrongLength total
      (if taken = 1 then "1 element in sequence" else toString taken ++ " elements in sequence")

/-- The next item of an array and those behind it, if there is one. -/
def nextItem : List Json → Except Error (Option (Json × List Json))
  | [] => .ok none
  | .unclosed fault :: _ => .error (.fault fault)
  | item :: rest => .ok (some (item, rest))

/-- Expects the end of an array of which some items have been taken. -/
def endItems (source : Source) (taken total : Nat) : List Json → Except Error Unit
  | [] => .ok ()
  | .unclosed fault :: _ => .error (.fault fault)
  | _ => .error (source.surplus taken total)

namespace Decoder

variable {α β : Type}

/-- A decoder whose results have to pass a test. -/
def check (d : Decoder α) (f : α → Except String β) : Decoder β := fun source value =>
  match d source value with
  | .error e => .error e
  | .ok a =>
    match f a with
    | .error reason => .error (.refused reason)
    | .ok b => .ok b

/-- A decoder whose results are made into something else. -/
def map (d : Decoder α) (f : α → β) : Decoder β := fun source value =>
  match d source value with
  | .error e => .error e
  | .ok a => .ok (f a)

/-- A string. -/
def text : Decoder String := fun _ value =>
  match value with
  | .string s => .ok s
  | value => .error (unexpected value "a string")

/-- A whole number below a bound; the name of its type stands in the messages. -/
def below (bound : Nat) (name : String) : Decoder Nat := fun _ value =>
  match value with
  | .number (.integer n) =>
    if 0 ≤ n ∧ n < bound then .ok n.toNat else .error (.outOfRange n name)
  | value => .error (unexpected value name)

/-- A whole number of 8 bits. -/
def word8 : Decoder UInt8 := (below UInt8.size "u8").map UInt8.ofNat

/-- A whole number of 16 bits. -/
def word16 : Decoder UInt16 := (below UInt16.size "u16").map UInt16.ofNat

/-- A whole number of 32 bits. -/
def word32 : Decoder UInt32 := (below UInt32.size "u32").map UInt32.ofNat

/-- A whole number of 64 bits. -/
def word64 : Decoder UInt64 := (below UInt64.size "u64").map UInt64.ofNat

/-- One word of a pair. -/
def pairItem (source : Source) (position : Nat) (items : List Json) :
    Except Error (UInt32 × List Json) :=
  match nextItem items with
  | .error e => .error e
  | .ok none => .error (.wrongLength position "an array of length 2")
  | .ok (some (item, rest)) =>
    match word32 source item with
    | .error e => .error e
    | .ok word => .ok (word, rest)

/-- A 64-bit number as a pair of words, the low one first. -/
def pair : Decoder UInt64 := fun source value =>
  match value with
  | .array items => do
    let (low, rest) ← pairItem source 0 items
    let (high, rest) ← pairItem source 1 rest
    endItems source 2 items.length rest
    return Words.join low high
  | value => .error (unexpected value "an array of length 2")

/-- An array whose items are all decoded alike. -/
def list (d : Decoder α) : Decoder (List α) := fun source value =>
  match value with
  | .array items => items.mapM (d source)
  | value => .error (unexpected value "a sequence")

/-- A value that may be null. -/
def nullable (d : Decoder α) : Decoder (Option α) := fun source value =>
  match value with
  | .null => .ok none
  | value => d.map some source value

/-- The items of an array as they stand; a reader of a text makes sure that they can be passed and
that they are Unicode. -/
def rawList : Decoder (List Json) :=
  list fun _ value =>
    match value.pass with
    | .error fault => .error (.fault fault)
    | .ok () => if value.isUnicode then .ok value else .error (.fault .badCodePoint)

/-- The items of an array as values of their own. -/
def valueList : Decoder (List Json) :=
  list fun _ value =>
    match value.review with
    | .error e => .error e
    | .ok () => .ok value

end Decoder

/-- The fields of a record: their names in the order in which they are declared, what is wrong with
a value under one of the names, and how the record is made from members or from items. -/
structure Fields (α : Type) where
  names : List String
  check : Source → String → Json → Except Error Unit
  ofMembers : Source → List (String × Json) → Except Error α
  ofItems : Source → (short : Nat → Error) → (position : Nat) → List Json →
    Except Error (α × Nat × List Json)

namespace Fields

variable {α β : Type}

/-- A field with what stands for it where it is missing: a value or an error. -/
def field (name : String) (d : Decoder α) (absent : Option α) : Fields α where
  names := [name]
  check source _ value :=
    match d source value with
    | .error e => .error e
    | .ok _ => .ok ()
  ofMembers source members :=
    match members.lookup name with
    | some value => d source value
    | none =>
      match absent with
      | some a => .ok a
      | none => .error (.missing name)
  ofItems source short position items :=
    match nextItem items with
    | .error e => .error e
    | .ok (some (item, rest)) =>
      match d source item with
      | .error e => .error e
      | .ok a => .ok (a, position + 1, rest)
    | .ok none =>
      match absent with
      | some a => .ok (a, position + 1, [])
      | none => .error (short position)

/-- A field that has to be there. -/
def required (name : String) (d : Decoder α) : Fields α :=
  field name d none

/-- A field that may be missing; something else stands for it then. -/
def optional (name : String) (d : Decoder α) (absent : α) : Fields α :=
  field name d (some absent)

/-- A field that may be missing or null. -/
def nullable (name : String) (d : Decoder α) : Fields (Option α) :=
  optional name d.nullable none

instance : Functor Fields where
  map f fields :=
    { names := fields.names
      check := fields.check
      ofMembers := fun source members =>
        match fields.ofMembers source members with
        | .error e => .error e
        | .ok a => .ok (f a)
      ofItems := fun source short position items =>
        match fields.ofItems source short position items with
        | .error e => .error e
        | .ok (a, position, rest) => .ok (f a, position, rest) }

instance : Seq Fields where
  seq fs as :=
    { names := fs.names ++ (as ()).names
      check := fun source name value =>
        if name ∈ fs.names then fs.check source name value else (as ()).check source name value
      ofMembers := fun source members =>
        match fs.ofMembers source members with
        | .error e => .error e
        | .ok f =>
          match (as ()).ofMembers source members with
          | .error e => .error e
          | .ok a => .ok (f a)
      ofItems := fun source short position items =>
        match fs.ofItems source short position items with
        | .error e => .error e
        | .ok (f, position, rest) =>
          match (as ()).ofItems source short position rest with
          | .error e => .error e
          | .ok (a, position, rest) => .ok (f a, position, rest) }

/-- Goes over members in order, for the first one that is wrong. -/
def visit (fields : Fields α) (source : Source) :
    (seen : List String) → List (String × Json) → Except Error Unit
  | _, [] => .ok ()
  | _, (_, .unclosed fault) :: _ => .error (.fault fault)
  | _, (_, .misnamed fault _) :: _ => .error (.fault fault)
  | seen, (name, value) :: rest =>
    if name ∈ fields.names then
      if name ∈ seen then .error (.duplicate name)
      else
        match fields.check source name value with
        | .error e => .error e
        | .ok () => visit fields source (name :: seen) rest
    else
      match value.pass with
      | .error fault => .error (.fault fault)
      | .ok () => visit fields source seen rest

/-- The record that an object's members make. -/
def ofObject (fields : Fields α) (source : Source) (members : List (String × Json)) :
    Except Error α :=
  match visit fields source [] members with
  | .error e => .error e
  | .ok () => fields.ofMembers source members

/-- The error of a record's array that ends too early. -/
def short (label : String) (size : Nat) (position : Nat) : Error :=
  .wrongLength position
    (label ++ " with " ++ (if size = 1 then "1 element" else toString size ++ " elements"))

/-- A record that is an object or an array of its fields; the label stands in the messages. -/
def record (label : String) (fields : Fields α) : Decoder α := fun source value =>
  match value with
  | .object members => fields.ofObject source members
  | .array items =>
    match fields.ofItems source (short label fields.names.length) 0 items with
    | .error e => .error e
    | .ok (a, taken, rest) =>
      match endItems source taken items.length rest with
      | .error e => .error e
      | .ok () => .ok a
  | value => .error (unexpected value label)

/-- A record whose object holds the fields of a second record too. The second one is made from what
the first one leaves over, after it. -/
def beside (label : String) (own : Fields α) (shared : Fields β) : Decoder (β × α) :=
  fun source value =>
    match value with
    | .object members =>
      match own.ofObject source members with
      | .error e => .error e
      | .ok a =>
        match shared.ofObject .leftover members with
        | .error e => .error e
        | .ok b => .ok (b, a)
    | value => .error (unexpected value label)

end Fields

/-- Decodes a text while it is being parsed: what is wrong first in the text is reported. -/
def decodeText {α : Type} (d : Decoder α) (bytes : List UInt8) : Except Error α :=
  let document := Document.ofBytes bytes
  match d .text document.root with
  | .error e => .error e
  | .ok a => if document.trailing then .error (.fault .trailingText) else .ok a

end Json

end DriveChain
