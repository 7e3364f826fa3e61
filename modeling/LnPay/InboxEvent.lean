/-
# Requests (`daemon/src/dispatch.ts`, `shared/src/order-ref.ts`, `daemon/src/orders`)

An inbox event as a handler sees it, the tags it reads, and the two answers a
handler can give.  The signature of the event has been checked by the ingress,
so `pubkey` is its author.
-/
import LnPay.HoldInvoice

namespace LnPay

/-- `HEX64`. -/
def isHex64 (s : String) : Bool :=
  s.toList.length = 64 && s.toList.all fun c => c.isDigit || ('a' ≤ c && c ≤ 'f')

/-- What opening and parsing the encrypted content of a request comes to. -/
inductive Content (Payload : Type)
  | undecryptable
  | badPayload
  | payload (p : Payload)

/-- An event of the inbox. -/
structure InboxEvent (Payload : Type) where
  id : String
  pubkey : Pubkey
  /-- checked together with the signature -/
  isHex64_pubkey : isHex64 pubkey = true
  createdAt : ℤ
  tags : List (List String)
  content : Content Payload

/-- `HandlerResult`. -/
inductive HandlerResult
  | ok
  | ignored (reason : String)
  deriving DecidableEq, Repr

/-- `tagValue`: the value of the first tag of that name. -/
def tagValue (tags : List (List String)) (name : String) : Option String :=
  (tags.find? fun t => t.head? = some name).bind fun t => t[1]?

/-- The white space that `String.prototype.trim` removes. -/
def isJsSpace (c : Char) : Bool :=
  c.toNat ∈ [9, 10, 11, 12, 13, 32, 0xa0, 0x1680, 0x2028, 0x2029, 0x202f, 0x205f, 0x3000, 0xfeff] ||
    (0x2000 ≤ c.toNat && c.toNat ≤ 0x200a)

/-- `String.prototype.trim`. -/
def jsTrim (s : String) : String :=
  String.ofList ((s.toList.dropWhile isJsSpace).reverse.dropWhile isJsSpace).reverse

/-- `ORDER_KIND`. -/
def orderKind : String := "38383"

/-- `extractOrderId`: the third part of the `a` tag of an order kind. -/
def extractOrderId (tags : List (List String)) : Option OrderId :=
  match tagValue tags "a" with
  | none => none
  | some a =>
    match (a.toList.splitOn ':').map String.ofList with
    | kind :: _ :: orderId :: _ => if kind = orderKind then some orderId else none
    | _ => none

/-- The characters of an order id. -/
def isOrderIdChar (c : Char) : Bool := c.isAlphanum || c = '_' || c = '-'

/-- `isOrderId`: `^[0-9A-Za-z_-]{4,64}$`. -/
def isOrderId (s : String) : Bool :=
  4 ≤ s.toList.length && s.toList.length ≤ 64 && s.toList.all isOrderIdChar

end LnPay
