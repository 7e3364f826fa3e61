/-
# The Lightning clock (`daemon/src/ln/watcher.ts`)

Once a tick the clock judges by the time and the block height, in one
transaction: drafts without a deposit, claims, unpaid escrows, deadlines, the
end of an escrow.  Each loop reads its rows when it begins.
-/
import LnPay.LnFlow

namespace LnPay

namespace LnCtx

variable (ctx : LnCtx)

/-- `closeAt`: only the states in which money may be on its way get the grace after the deadline. -/
def closeAt (order : LnOrderRow) : ℤ :=
  if order.state = .escrowed then order.invoiceDeadline.getD (order.deadline + deadlineGraceSec)
  else if order.state = .invoiced then order.deadline + deadlineGraceSec else order.deadline

/-- `escrowEnding`: the escrow's HTLC has no more than `blocks` left. -/
def escrowEnding (order : LnOrderRow) (height : Option ℕ) (blocks : ℤ) (db : LnDb) : Bool :=
  match height.filter (0 < ·), order.escrowHash.bind db.holds.find with
  | some height, some escrow =>
    match escrow.htlcExpiryHeight with
    | some expiry => expiry ≠ 0 && (expiry : ℤ) - height ≤ blocks
    | none => false
  | _, _ => false

/-- An invoice that is still open on record after its time. -/
def overdue (inv : HoldRow) : Bool := inv.status = .opened && inv.payBy + payBySkewSec < ctx.now

/-- The drafts that wait for their deposit. -/
def clockDraft (draft : LnDraftRow) (db : LnDb) : Except Abort LnDb :=
  match currentHold .lnCustomerDeposit draft.orderId draft.customer db with
  | none =>
    if customerDepositPaySec < ctx.now - draft.createdAt then .ok (deleteDraft draft.orderId db)
    else if 0 < db.track.settings.customerDepositPct then
      ctx.planCustomerDeposit draft db.track.settings.customerDepositPct db
    else
      insertOrder ctx.now
        { orderId := draft.orderId, customer := draft.customer, price := draft.price
          deadline := draft.deadline } (deleteDraft draft.orderId db)
  | some dep =>
    if ctx.overdue dep then .ok (dispose dep.paymentHash .cancel (deleteDraft draft.orderId db))
    else .ok db

/-- The automatic approval of a claim; a designated trade needs no setting for it. -/
def clockApprove (order : LnOrderRow) (db : LnDb) : Except Abort LnDb :=
  if (db.track.settings.autoApprove ∨ order.designatedSponsor.isSome) ∧
      ctx.approveBlocker order db = none then (ctx.approve order db).map Prod.snd
  else .ok db

/-- The claims: the sponsor's deposit first, then the approval. -/
def clockClaim (order : LnOrderRow) (db : LnDb) : Except Abort LnDb :=
  if order.pendingClose.isSome then .ok db
  else if sponsorDepositRequired order db ∧ order.sponsorDepositHash = none then
    match sponsorDepositOf order db with
    | none => ctx.planSponsorDeposit order db.track.settings.sponsorDepositPct db
    | some dep => if ctx.overdue dep then ctx.revertClaim order db else ctx.clockApprove order db
  else ctx.clockApprove order db

/-- The escrows nobody paid. -/
def clockUnpaid (order : LnOrderRow) (db : LnDb) : Except Abort LnDb :=
  if order.pendingClose.isSome then .ok db
  else match order.escrowHash.bind db.holds.find with
    | none => .ok db
    | some escrow =>
      if ctx.overdue escrow then (ctx.beginClose order .cancelUnpaidEscrow db).map Prod.snd
      else .ok db

/-- The deadlines and the end of the escrow, with the same reason for both. -/
def clockExpiry (warmedUp : Bool) (height : Option ℕ) (order : LnOrderRow) (db : LnDb) :
    Except Abort LnDb :=
  if order.pendingClose.isSome then .ok db
  else match expiryReasonFor order.state order.sponsor.isSome order.accountSentAt.isSome with
    | none => .ok db
    | some reason =>
      if (warmedUp ∧ closeAt order < ctx.now) ∨ escrowEnding order height escrowEndBlocks db then
        (ctx.beginClose order reason db).map Prod.snd
      else .ok db

/-- After the remittance: the escrow is taken before its HTLC dies. -/
def clockSafety (height : Option ℕ) (order : LnOrderRow) (db : LnDb) : Except Abort LnDb :=
  if order.pendingClose.isSome then .ok db
  else match order.escrowHash.bind db.holds.find with
    | none => .ok db
    | some escrow =>
      if escrow.status = .accepted ∧ escrowEnding order height safetySettleBlocks db then
        .ok (dispose escrow.paymentHash .settle db)
      else .ok db

/-- `clock`. -/
def clock (startedAt : ℤ) (height : Option ℕ) (db : LnDb) : Except Abort LnDb := do
  let warmedUp : Bool := catchupWarmupSec ≤ ctx.now - startedAt
  let db ← forEach (allDrafts db) ctx.clockDraft db
  let db ← forEach (ordersInStates [.claimed] db) ctx.clockClaim db
  let db ← forEach (ordersInStates [.verified] db) ctx.clockUnpaid db
  let db ← forEach (ordersInStates [.requested, .claimed, .verified, .escrowed, .invoiced] db)
    (ctx.clockExpiry warmedUp height) db
  forEach (ordersInStates [.remitted] db) (clockSafety height) db

/-- `poll` writes the height down, outside the clock's transaction, when the node gave one. -/
def recordHeight (height : Option ℕ) (db : LnDb) : LnDb :=
  match height with
  | some h => { db with track := { db.track with height := some h } }
  | none => db

end LnCtx

end LnPay
