import DriveChain.Json.Double
import DriveChain.Octets.Hex

/-!
# Printing JSON

The compact form has no blanks. The indented form puts every item and member on a line of its own,
two blanks deeper than its bracket. Members stand in the order in which the object holds them.
-/

namespace DriveChain

namespace Json

/-- A character inside a quoted string; control characters are escaped, and so is what would
end it. -/
def escapeChar (c : Char) : String :=
  let n := c.toNat
  if c = '"' then "\\\""
  else if c = '\\' then "\\\\"
  else if n = 8 then "\\b"
  else if n = 12 then "\\f"
  else if n = 10 then "\\n"
  else if n = 13 then "\\r"
  else if n = 9 then "\\t"
  else if n < 32 then "\\u00" ++ String.ofList ((Hex.number 2 n).toList.map Char.toLower)
  else String.singleton c

/-- A string between quotes. -/
def quote (s : String) : String :=
  "\"" ++ String.join (s.toList.map escapeChar) ++ "\""

mutual

/-- The compact form; places that are no values are shown as null. -/
def compact : Json → String
  | .null => "null"
  | .bool b => toString b
  | .number n => n.text
  | .string s => quote s
  | .array items => "[" ++ ",".intercalate (compactItems items) ++ "]"
  | .object members => "\x7b" ++ ",".intercalate (compactMembers members) ++ "\x7d"
  | _ => "null"

/-- The compact forms of items. -/
def compactItems : List Json → List String
  | [] => []
  | item :: rest => compact item :: compactItems rest

/-- The members of an object in compact form. -/
def compactMembers : List (String × Json) → List String
  | [] => []
  | (name, value) :: rest => (quote name ++ ":" ++ compact value) :: compactMembers rest

end

/-- Lines between two brackets, indented below the line they belong to. -/
def block (opening closing : String) (indent : String) (lines : List String) : String :=
  if lines.isEmpty then opening ++ closing
  else
    opening ++ "\n" ++ indent ++ "  " ++ (",\n" ++ indent ++ "  ").intercalate lines ++ "\n" ++
      indent ++ closing

mutual

/-- The indented form, inside a line that is itself indented. -/
def indented (indent : String) : Json → String
  | .null => "null"
  | .bool b => toString b
  | .number n => n.text
  | .string s => quote s
  | .array items => block "[" "]" indent (indentedItems (indent ++ "  ") items)
  | .object members => block "\x7b" "\x7d" indent (indentedMembers (indent ++ "  ") members)
  | _ => "null"

/-- The indented forms of items. -/
def indentedItems (indent : String) : List Json → List String
  | [] => []
  | item :: rest => indented indent item :: indentedItems indent rest

/-- The members of an object, with their values in indented form. -/
def indentedMembers (indent : String) : List (String × Json) → List String
  | [] => []
  | (name, value) :: rest =>
    (quote name ++ ": " ++ indented indent value) :: indentedMembers indent rest

end

/-- The indented form of a value that stands on its own. -/
def pretty (value : Json) : String :=
  value.indented ""

end Json

end DriveChain
