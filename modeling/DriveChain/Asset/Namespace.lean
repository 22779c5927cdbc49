import DriveChain.Asset.Identifier

/-!
# Namespaces

A namespace has a name of one to three parts with dots between them, and one identifier per level,
each made from the identifier above it and the part. The top bit of every made identifier is set.
-/

namespace DriveChain

/-- The identifier of a namespace. -/
structure NamespaceId where
  id : UInt64
deriving DecidableEq, Repr

/-- What is wrong with one part of a name. -/
inductive PartFault where
  | empty
  | long
  | start
  | character
deriving DecidableEq, Repr

/-- Why a text is not the name of a namespace. -/
inductive NamespaceError where
  | levels (name : String) (found : Nat)
  | part (name : String) (fault : PartFault)
deriving DecidableEq, Repr

namespace PartFault

/-- What is said about the fault. -/
def message : PartFault → String
  | .empty => "empty part"
  | .long => "part longer than 64 chars"
  | .start => "part must start with a lowercase letter or digit"
  | .character => "allowed characters are a-z, 0-9, '_' and '-'"

end PartFault

namespace NamespaceError

/-- What is said about the error, the whole name included. -/
def message : NamespaceError → String
  | .levels name found =>
    "invalid namespace name: '" ++ name ++ "' has " ++ toString found ++
      " levels, at most 3 allowed"
  | .part name fault => "invalid namespace name: '" ++ name ++ "': " ++ fault.message

end NamespaceError

namespace NamespaceId

/-- The parent of the namespaces of the first level. -/
def root : NamespaceId := ⟨0⟩

/-- The namespace that a part names below this one. -/
def child (parent : NamespaceId) (part : String) : NamespaceId :=
  let (low, high) := Identifier.words
    (sha3 (bytes32 (Words.low parent.id) ++ bytes32 (Words.high parent.id) ++ utf8 part))
  ⟨Words.join low (high ||| 0x80000000)⟩

/-- The parts between the dots of a text; there is always at least one. -/
def splitDots : List Char → List (List Char)
  | [] => [[]]
  | c :: rest =>
    if c = '.' then [] :: splitDots rest
    else
      match splitDots rest with
      | part :: parts => (c :: part) :: parts
      | [] => [[c]]

/-- The parts of a name. -/
def parts (name : String) : List String :=
  (splitDots name.toList).map String.ofList

/-- The characters that a part may begin with. -/
def isStart (c : Char) : Bool :=
  c.isLower || c.isDigit

/-- The characters that may follow in a part. -/
def isInner (c : Char) : Bool :=
  c.isLower || c.isDigit || c == '_' || c == '-'

/-- The first fault of a part, if it has any. -/
def partFault? (part : String) : Option PartFault :=
  match part.toList with
  | [] => some .empty
  | c :: rest =>
    if part.utf8ByteSize > 64 then some .long
    else if !isStart c then some .start
    else if !rest.all isInner then some .character
    else none

/-- The parts of a well-formed name. Levels are counted before any part is looked at. -/
def checkedParts (name : String) : Except NamespaceError (List String) :=
  let ps := parts name
  if ps.length > 3 then .error (.levels name ps.length)
  else
    match ps.findSome? partFault? with
    | some fault => .error (.part name fault)
    | none => .ok ps

/-- The identifiers that parts lead through, from a parent down. -/
def descend : NamespaceId → List String → List NamespaceId
  | _, [] => []
  | parent, part :: rest => parent.child part :: descend (parent.child part) rest

/-- One identifier per level of a name. -/
def path (name : String) : Except NamespaceError (List NamespaceId) :=
  match checkedParts name with
  | .error e => .error e
  | .ok ps => .ok (descend root ps)

/-- The identifier of the last level of a name. -/
def ofName (name : String) : Except NamespaceError NamespaceId :=
  match path name with
  | .error e => .error e
  | .ok ids => .ok (ids.getLastD root)

/-- The identifier of a name that is known to be well formed. -/
def ofKnownName (name : String) : NamespaceId :=
  (parts name).foldl child root

/-- Reads a namespace from its sixteen digits, whatever number they are. -/
def ofHex (text : String) : Except IdentifierError NamespaceId :=
  match Identifier.ofHex text with
  | .error e => .error e
  | .ok id => .ok ⟨id⟩

/-- The sixteen digits of a namespace's identifier. -/
def hex (n : NamespaceId) : String :=
  Identifier.hex n.id

/-- How a namespace is shown in a listing of values. -/
def describe (n : NamespaceId) : String :=
  "NamespaceId(" ++ n.hex ++ ")"

/-- The namespaces of the chain's own assets. -/
def wellKnown : List String :=
  ["nem.xem", "prx.xpx", "prx.so", "prx.sm", "prx.sc"]

end NamespaceId

end DriveChain
