/-
# Order events on a user's device (`shared/src/ln/order.ts`, `customer/src/buyer/types.ts`,
`shared/src/order-progress.ts`, `shared/src/account-commitment.ts`)

The app publishes an order as a signed event; a device reads the tags back.
An absent tag and an empty one are the same to the reader.
-/
import LnPay.InboxDispatch

namespace LnPay

/-- `AccountInfo`. -/
structure AccountInfo where
  bankName : String
  accountNumber : String
  holderName : String
  deriving DecidableEq, Repr

/-- A tag that is there and is not empty. -/
def RelayEvent.text (e : RelayEvent) (name : String) : Option String :=
  (tagValue e.tags name).filter fun s => s ≠ ""

/-- A tag read as a number, zero when it is not one in decimal digits. -/
def RelayEvent.number (e : RelayEvent) (name : String) : ℕ :=
  match tagValue e.tags name with
  | some s =>
    if s.toList.all Char.isDigit then s.toList.foldl (fun n c => 10 * n + (c.toNat - '0'.toNat)) 0
    else 0
  | none => 0

/-- `Order`, as far as the handlers read it.  The state is whatever the tag says. -/
structure LnOrderView where
  orderId : String
  state : String
  customerPubkey : Pubkey
  sponsorPubkey : Option Pubkey
  bolt11 : Option String
  closeReason : Option String
  retainUntil : Option ℕ
  updatedAt : ℚ
  deriving DecidableEq

/-- `parseLnOrderEvent`: the app's events only. -/
def parseLnOrderEvent (appPubkey : Pubkey) (e : RelayEvent) : Option LnOrderView :=
  if e.pubkey ≠ appPubkey then none
  else (e.text "d").map fun orderId =>
    { orderId := orderId
      state := (tagValue e.tags "state").getD "requested"
      customerPubkey := (tagValue e.tags "customer").getD ""
      sponsorPubkey := e.text "sponsor"
      bolt11 := e.text "bolt11"
      closeReason := e.text "close-reason"
      retainUntil := if 0 < e.number "expiration" then some (e.number "expiration") else none
      updatedAt := e.createdAt }

/-- `AdminOrderUpdate`. -/
structure AdminOrderUpdate where
  orderId : String
  adminState : String
  bolt11 : Option String
  sponsorPubkey : Option Pubkey
  retainUntil : Option ℕ
  closeReason : Option String
  deriving DecidableEq

/-- `parseAdminEvent`: what the event says to its customer. -/
def parseAdminEvent (appPubkey myPubkey : Pubkey) (e : RelayEvent) : Option AdminOrderUpdate :=
  if tagValue e.tags "customer" ≠ some myPubkey then none
  else (parseLnOrderEvent appPubkey e).map fun o =>
    { orderId := o.orderId
      adminState := o.state
      bolt11 := o.bolt11
      sponsorPubkey := o.sponsorPubkey
      retainUntil := o.retainUntil
      closeReason := o.closeReason }

/-- `canSendAccountInfo`: an unknown state is not one to send in. -/
def canSendAccountInfo (state : Option String) : Bool :=
  state = some "invoiced" || state = some "remitted"

end LnPay
