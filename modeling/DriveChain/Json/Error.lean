import DriveChain.Json.Double
import DriveChain.Octets.Hex
import DriveChain.Text.Quotation

/-!
# What can be wrong with a document

Either the text is no JSON, or the value does not have the shape that is asked for, or its shape is
right and what it says is refused.
-/

namespace DriveChain

namespace Json

/-- What is wrong with a document. -/
inductive Error where
  | fault (fault : Fault)
  | wrongType (found : String) (expected : String)
  | wrongLength (found : Nat) (expected : String)
  | outOfRange (found : Int) (expected : String)
  | missing (field : String)
  | duplicate (field : String)
  | refused (reason : String)
  /-- An error in a text, whose report says where in the text it is. -/
  | inText (cause : Error)
deriving DecidableEq, Repr

/-- What kind of value stands in a place, for a message about it. -/
def kind : Json → String
  | .null => "null"
  | .bool b => "boolean `" ++ toString b ++ "`"
  | .number (.integer n) => "integer `" ++ toString n ++ "`"
  | .number decimal => "floating point `" ++ decimal.text ++ "`"
  | .string s => "string " ++ Quotation.text s
  | .array _ => "sequence"
  | .object _ => "map"
  | _ => "nothing"

/-- The error of a reader who expects something else than what stands here. -/
def unexpected (value : Json) (expected : String) : Error :=
  match value with
  | .damaged fault _ => .fault fault
  | .misnamed fault _ => .fault fault
  | .broken fault => .fault fault
  | .unclosed fault => .fault fault
  | value => .wrongType value.kind expected

namespace Error

/-- What is said about the error; where it is in the text is not said. -/
def message : Error → String
  | .fault f => f.message
  | .wrongType found expected => "invalid type: " ++ found ++ ", expected " ++ expected
  | .wrongLength found expected => "invalid length " ++ toString found ++ ", expected " ++ expected
  | .outOfRange found expected =>
    "invalid value: integer `" ++ toString found ++ "`, expected " ++ expected
  | .missing field => "missing field `" ++ field ++ "`"
  | .duplicate field => "duplicate field `" ++ field ++ "`"
  | .refused reason => reason
  | .inText cause => cause.message

end Error

end Json

end DriveChain
