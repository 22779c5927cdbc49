import DriveChain.Json.Error
import DriveChain.Json.Reader

/-!
# Parsing a text to a value

A text that is parsed to a value is read to its end, and the first fault in it counts. The members
of objects are brought into the order of their names, and of those with the same name the last one
stays.

A document may stand inside another one as a string. An object whose first member has the reserved
name `nestedName` is not kept: in its place stands the value of the text that this member holds. It
is an error if the member is no string, if its text cannot be parsed, or if a second member follows.
-/

namespace DriveChain

namespace Json

/-- The name of the member that holds the text of a document. -/
def nestedName : String := "$serde_json::private::RawValue"

/-- The number of levels that the values of a text may be nested. -/
def maxLevels : Nat := 128

/-- What is wrong with a text in which something follows where an object has to end. -/
def endObject : List (String × Json) → Except Error Unit
  | [] => .ok ()
  | (_, .unclosed .endInObject) :: _ => .error (.fault .endInObject)
  | (_, .unclosed .noObjectEnd) :: _ => .error (.fault .trailingText)
  | _ => .error (.fault .trailingComma)

/-- An error of a reader within a text, whose report says where in the text it is. -/
def Error.within : Error → Error
  | .fault f => .fault f
  | .inText cause => .inText cause
  | error => .inText error

/-- The value in the place of an object that holds a text, with the members behind the text. -/
def unfold (parse : String → Except Error Json) (value : Json) (rest : List (String × Json)) :
    Except Error Json :=
  match value with
  | .string text =>
    match parse text with
    | .error cause => .error (.inText cause)
    | .ok nested =>
      match endObject rest with
      | .error e => .error e
      | .ok () => .ok nested
  | value => .error (unexpected value "raw value").within

/-- The whole tree of a value; `levels` bounds how deep values may be nested, brackets and all, and
`parse` is for texts that stand in strings. -/
def settle (parse : String → Except Error Json) : (levels : Nat) → Json → Except Error Json
  | 0, _ => .error (.fault .tooDeep)
  | levels + 1, value =>
    match value with
    | .array items =>
      if levels = 0 then .error (.fault .tooDeep)
      else do
        let items ← items.mapM (settle parse levels)
        return .array items
    | .object members =>
      if levels = 0 then .error (.fault .tooDeep)
      else
        match members with
        | [] => .ok (.object [])
        | (name, value) :: rest =>
          if name = nestedName then unfold parse value rest
          else do
            let members ← ((name, value) :: rest).mapM fun member =>
              match member.2 with
              | .misnamed fault _ => .error (.fault fault)
              | value => do return (member.1, ← settle parse levels value)
            return ofMembers members
    | .damaged fault _ => .error (.fault fault)
    | .misnamed fault _ => .error (.fault fault)
    | .broken fault => .error (.fault fault)
    | .unclosed fault => .error (.fault fault)
    | whole => .ok whole

/-- The whole value of a text in which texts are nested at most so deep. -/
def parseNested : (nestings : Nat) → List UInt8 → Except Error Json
  | 0, _ => .error (.fault .tooDeep)
  | nestings + 1, bytes =>
    let document := Document.ofBytes bytes
    match settle (fun text => parseNested nestings (utf8 text)) maxLevels document.root with
    | .error e => .error e
    | .ok value => if document.trailing then .error (.fault .trailingText) else .ok value

/-- The whole value of a text. A text is longer than every text that is nested in it. -/
def parse (bytes : List UInt8) : Except Error Json :=
  parseNested (bytes.length + 1) bytes

mutual

/-- Goes over a parsed value whose objects are looked at once more, with their members in order.
The one with the reserved name now comes first if its name is the least, and then no other member
may be beside it. -/
def review : Json → Except Error Unit
  | .array items => reviewItems items
  | .object [] => .ok ()
  | .object ((name, value) :: rest) =>
    if name = nestedName then
      match value with
      | .string text =>
        match parse (utf8 text) with
        | .error cause => .error (.inText cause)
        | .ok _ =>
          if rest.isEmpty then .ok ()
          else .error (.wrongLength (rest.length + 1) "fewer elements in map")
      | value => .error (unexpected value "raw value")
    else
      match review value with
      | .error e => .error e
      | .ok () => reviewMembers rest
  | _ => .ok ()

/-- Goes over the items of an array once more. -/
def reviewItems : List Json → Except Error Unit
  | [] => .ok ()
  | item :: rest =>
    match review item with
    | .error e => .error e
    | .ok () => reviewItems rest

/-- Goes over the members of an object once more. -/
def reviewMembers : List (String × Json) → Except Error Unit
  | [] => .ok ()
  | (_, value) :: rest =>
    match review value with
    | .error e => .error e
    | .ok () => reviewMembers rest

end

end Json

end DriveChain
