import DriveChain.Transaction.Payload

/-!
# Transactions

A transaction is a header with the payload of a drive transaction, or an aggregate: a header with
other transactions and the cosignatures of those who agree to them. The type in a header is a plain
field, which may say something else than what the transaction holds; `Transaction.shape` says what
it holds.
-/

namespace DriveChain

/-- Someone who agrees to an aggregate, with the signature over its hash. -/
structure Cosignature where
  signer : Account
  signature : Signature
deriving DecidableEq

/-- A transaction: a header with what the transaction holds. -/
inductive Transaction where
  | single (header : Header) (payload : Payload)
  | aggregate (header : Header) (inner : List Transaction) (cosignatures : List Cosignature)

namespace Transaction

/-- The header of a transaction. -/
def header : Transaction → Header
  | .single header _ => header
  | .aggregate header _ _ => header

/-- The transaction with another header. -/
def withHeader (tx : Transaction) (header : Header) : Transaction :=
  match tx with
  | .single _ payload => .single header payload
  | .aggregate _ inner cosignatures => .aggregate header inner cosignatures

/-- The type in the header, whatever the transaction holds. -/
def type (tx : Transaction) : TransactionType :=
  tx.header.type

/-- What a transaction holds, whatever type its header says. -/
def shape : Transaction → Shape
  | .single _ payload => payload.shape
  | .aggregate _ _ _ => .aggregate

/-- The inner transactions of an aggregate. -/
def inner : Transaction → List Transaction
  | .single _ _ => []
  | .aggregate _ inner _ => inner

/-- The cosignatures of an aggregate. -/
def cosignatures : Transaction → List Cosignature
  | .single _ _ => []
  | .aggregate _ _ cosignatures => cosignatures

/-- The accounts that a transaction names besides its signer, in order. -/
def accounts : Transaction → List Account
  | .single _ payload => payload.accounts
  | .aggregate _ _ cosignatures => cosignatures.map (·.signer)

mutual

/-- The bytes that a transaction takes. -/
def size : Transaction → Nat
  | .single _ payload => payload.size
  | .aggregate _ inner cosignatures =>
    Layout.aggregate + innerSize inner + Layout.cosignature * cosignatures.length

/-- The bytes that transactions take inside an aggregate. -/
def innerSize : List Transaction → Nat
  | [] => 0
  | tx :: rest => (size tx - Layout.embeddedReduction) + innerSize rest

end

mutual

/-- Whether two transactions agree in everything. -/
def decEq : (a b : Transaction) → Decidable (a = b)
  | .single h p, .single h' p' =>
    if hh : h = h' then
      if hp : p = p' then .isTrue (by rw [hh, hp]) else .isFalse (fun e => hp (by injection e))
    else .isFalse (fun e => hh (by injection e))
  | .aggregate h i c, .aggregate h' i' c' =>
    if hh : h = h' then
      if hc : c = c' then
        match decEqList i i' with
        | .isTrue hi => .isTrue (by rw [hh, hi, hc])
        | .isFalse hi => .isFalse (fun e => hi (by injection e))
      else .isFalse (fun e => hc (by injection e))
    else .isFalse (fun e => hh (by injection e))
  | .single _ _, .aggregate _ _ _ => .isFalse (fun e => by injection e)
  | .aggregate _ _ _, .single _ _ => .isFalse (fun e => by injection e)

/-- Whether two lists of transactions agree in everything. -/
def decEqList : (a b : List Transaction) → Decidable (a = b)
  | [], [] => .isTrue rfl
  | [], _ :: _ => .isFalse (fun e => by injection e)
  | _ :: _, [] => .isFalse (fun e => by injection e)
  | a :: as, b :: bs =>
    match decEq a b with
    | .isTrue h =>
      match decEqList as bs with
      | .isTrue hs => .isTrue (by rw [h, hs])
      | .isFalse hs => .isFalse (fun e => hs (by injection e))
    | .isFalse h => .isFalse (fun e => h (by injection e))

end

instance : DecidableEq Transaction := decEq

/-- A new transaction with a payload that keeps the rules. -/
def new (payload : Payload) (network : Network) (deadline : Deadline) :
    Except TransactionError Transaction :=
  match payload.validated with
  | .error e => .error e
  | .ok payload => .ok (.single (.new payload.shape.leadingType network deadline) payload)

/-- The transaction as a part of an aggregate: signed for by an account, without a signature, fee or
deadline of its own. -/
def embeddedFor (tx : Transaction) (signer : Account) : Transaction :=
  tx.withHeader { tx.header with
    signer := some signer, signature := none, maxFee := 0, deadline := 0, info := none }

end Transaction

end DriveChain
