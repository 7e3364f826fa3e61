/-
# The Lightning track's store (`daemon/src/ln/store.ts`, `daemon/src/ln/bolt11.ts`)

The order and draft tables of the Lightning track, the settings it reads, and
what it needs from outside: the bolt11 decoder and the numbers in event tags.

Every change of an order goes through `updateOrder`, which raises the version
and never touches the key, the parties' agreement (customer, price, deadline,
designated sponsor) or the creation time.
-/
import LnPay.LnRules

namespace LnPay

/-! ## What the track reads from outside -/

/-- The sections of a decoded bolt11 string the daemon reads. -/
structure DecodedInvoice where
  paymentHash : Option Hash
  amountMsat : Option ℕ
  timestamp : Option ℤ
  expiry : ℤ
  deriving DecidableEq, Repr

/-- The code outside the repository that the track's decisions rest on: key derivation, the bolt11
decoder (on the trimmed, lower-cased string), and the integer a numeric tag denotes. -/
structure LnEnv where
  keys : KeyDerivation
  decode : String → Option DecodedInvoice
  toInteger : String → Option ℤ

/-- `Bolt11Info`. -/
structure Bolt11Info where
  amountSat : ℕ
  paymentHash : Hash
  expiresAt : ℤ
  deriving DecidableEq, Repr

/-- `readBolt11`: the amount must be whole sats. -/
def readBolt11 (env : LnEnv) (bolt11 : String) : Option Bolt11Info :=
  match env.decode bolt11 with
  | some ⟨some hash, some msat, timestamp, expiry⟩ =>
    if msat = 0 ∨ msat % 1000 ≠ 0 then none
    else some ⟨msat / 1000, hash, timestamp.getD 0 + expiry⟩
  | _ => none

/-! ## Rows -/

/-- A row of `ln_orders` (without the publication cursor). -/
structure LnOrderRow where
  orderId : OrderId
  state : OrderState
  customer : Pubkey
  sponsor : Option Pubkey
  price : ℕ
  deadline : ℤ
  payoutSat : Option ℕ
  escrowHash : Option Hash
  escrowBolt11 : Option String
  escrowSettled : Bool
  sponsorInvoice : Option String
  disbursed : Bool
  payoutError : Option String
  customerDepositHash : Option Hash
  sponsorDepositHash : Option Hash
  pendingClose : Option LnCloseReason
  closeReason : Option LnCloseReason
  claimedAt : Option ℤ
  accountSentAt : Option ℤ
  accountCommitment : Option String
  remittedAt : Option ℤ
  invoiceDeadline : Option ℤ
  designatedSponsor : Option Pubkey
  createdAt : ℤ
  updatedAt : ℤ
  version : ℕ
  deriving DecidableEq, Repr

/-- A row of `ln_drafts`: an order waiting for the customer's deposit. -/
structure LnDraftRow where
  orderId : OrderId
  customer : Pubkey
  price : ℕ
  deadline : ℤ
  createdAt : ℤ
  deriving DecidableEq, Repr

/-- The Lightning part of `DaemonSettings`. -/
structure LnSettings where
  autoApprove : Bool
  customerDepositPct : ℚ
  sponsorDepositPct : ℚ
  deriving DecidableEq, Repr

/-- `DEFAULT_SETTINGS.ln`. -/
def defaultLnSettings : LnSettings := ⟨true, 0, 0⟩

/-- The tables of the Lightning track. -/
structure LnTables where
  orders : KeyedTable LnOrderRow.orderId
  drafts : KeyedTable LnDraftRow.orderId
  settings : LnSettings
  /-- the last block height seen (`ln.height`) -/
  height : Option ℕ

/-- The effects of the Lightning track that move money. -/
inductive LnEffect
  | close (orderId : OrderId)
  | payout (orderId : OrderId)
  deriving DecidableEq, Repr

/-- The dedup keys of the track's effects. -/
def LnEffect.key : LnEffect → String
  | .close orderId => "ln.close:" ++ orderId
  | .payout orderId => "ln.payout:" ++ orderId

instance : OwnEffect LnEffect where
  dedup e := some e.key
  dedup_ne_hold e h := by
    cases e <;> simp [LnEffect.key, ← String.toList_inj]
  dedup_ne_dispose e h := by
    cases e <;> simp [LnEffect.key, ← String.toList_inj]

/-- The ledger as the Lightning track sees it. -/
abbrev LnDb := Db LnTables LnEffect

/-! ## Orders -/

/-- `getOrder`. -/
def getOrder (orderId : OrderId) (db : LnDb) : Option LnOrderRow := db.track.orders.find orderId

/-- `ordersInStates`, in the order of creation. -/
def ordersInStates (states : List OrderState) (db : LnDb) : List LnOrderRow :=
  (db.track.orders.rows.filter fun o => o.state ∈ states).insertionSort
    fun a b => a.createdAt ≤ b.createdAt

/-- What an insertion says about a new order. -/
structure NewOrder where
  orderId : OrderId
  customer : Pubkey
  price : ℕ
  deadline : ℤ
  customerDepositHash : Option Hash := none
  designatedSponsor : Option Pubkey := none

/-- The row of a new order. -/
def NewOrder.row (o : NewOrder) (now : ℤ) : LnOrderRow where
  orderId := o.orderId
  state := .requested
  customer := o.customer
  sponsor := none
  price := o.price
  deadline := o.deadline
  payoutSat := none
  escrowHash := none
  escrowBolt11 := none
  escrowSettled := false
  sponsorInvoice := none
  disbursed := false
  payoutError := none
  customerDepositHash := o.customerDepositHash
  sponsorDepositHash := none
  pendingClose := none
  closeReason := none
  claimedAt := none
  accountSentAt := none
  accountCommitment := none
  remittedAt := none
  invoiceDeadline := none
  designatedSponsor := o.designatedSponsor
  createdAt := now
  updatedAt := now
  version := 1

/-- `insertOrder`. -/
def insertOrder (now : ℤ) (o : NewOrder) (db : LnDb) : Except Abort LnDb :=
  match db.track.orders.insert (o.row now) with
  | none => .error (.duplicateOrder o.orderId)
  | some orders => .ok { db with track := { db.track with orders := orders } }

/-- `openDesignatedCount`: this customer's designated orders nobody has taken yet. -/
def openDesignatedCount (customer : Pubkey) (db : LnDb) : ℕ :=
  (db.track.orders.rows.filter fun o =>
    o.customer = customer ∧ o.designatedSponsor.isSome ∧ o.state = .requested).length

/-- The row a patch leaves: what the store does not let it change is put back, the version is
raised. -/
def LnOrderRow.restamp (o patched : LnOrderRow) (now : ℤ) : LnOrderRow :=
  { patched with
    orderId := o.orderId, customer := o.customer, price := o.price, deadline := o.deadline
    designatedSponsor := o.designatedSponsor, createdAt := o.createdAt
    updatedAt := now, version := o.version + 1 }

/-- A patch as the store applies it. -/
def LnOrderRow.stamp (patch : LnOrderRow → LnOrderRow) (now : ℤ) (o : LnOrderRow) : LnOrderRow :=
  o.restamp (patch o) now

theorem LnOrderRow.stamp_orderId (patch : LnOrderRow → LnOrderRow) (now : ℤ) (o : LnOrderRow) :
    (LnOrderRow.stamp patch now o).orderId = o.orderId := rfl

/-- `updateOrder`: the only way an order changes. -/
def updateOrder (now : ℤ) (orderId : OrderId) (patch : LnOrderRow → LnOrderRow) (db : LnDb) :
    Except Abort LnDb :=
  match getOrder orderId db with
  | none => .error (.unknownOrder orderId)
  | some _ => .ok { db with track := { db.track with
      orders := db.track.orders.update orderId (LnOrderRow.stamp patch now)
        (LnOrderRow.stamp_orderId patch now) } }

/-! ## Drafts -/

/-- `getDraft`. -/
def getDraft (orderId : OrderId) (db : LnDb) : Option LnDraftRow := db.track.drafts.find orderId

/-- `allDrafts`, in the order of creation. -/
def allDrafts (db : LnDb) : List LnDraftRow :=
  db.track.drafts.rows.insertionSort fun a b => a.createdAt ≤ b.createdAt

/-- `INSERT INTO ln_drafts`. -/
def insertDraft (d : LnDraftRow) (db : LnDb) : Except Abort LnDb :=
  match db.track.drafts.insert d with
  | none => .error (.duplicateDraft d.orderId)
  | some drafts => .ok { db with track := { db.track with drafts := drafts } }

/-- `deleteDraft`. -/
def deleteDraft (orderId : OrderId) (db : LnDb) : LnDb :=
  { db with track := { db.track with drafts := db.track.drafts.erase orderId } }

end LnPay
