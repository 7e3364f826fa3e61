/-
# The Lightning trade's moves (`daemon/src/ln/flow.ts`)

The functions that the handlers, the clock, the operator's commands and the
hold hooks share.  They run inside a transaction and never call the node:
what moves money is stacked as an effect.

`holdHooks` is what the track does when one of its invoices changes.
-/
import LnPay.LnStore
import LnPay.InboxEvent

namespace LnPay

/-- What a transaction of the track reads besides the ledger: the time and the trusted price. -/
structure LnCtx where
  env : LnEnv
  now : ℤ
  price : Option ℚ

/-- `LN_HOLD_PURPOSES`. -/
def lnHoldPurposes : List HoldPurpose := [.lnEscrow, .lnCustomerDeposit, .lnSponsorDeposit]

namespace LnCtx

variable (ctx : LnCtx)

/-! ## Deposits -/

/-- `planLnHold`: plans an invoice whose HTLC lives until `holdUntil`. -/
def planLnHold (purpose : HoldPurpose) (orderId : OrderId) (party : Pubkey) (amountSat : ℕ)
    (payBy holdUntil : ℤ) (db : LnDb) : Except Abort (HoldRow × LnDb) :=
  plan ctx.env.keys ctx.now
    ⟨purpose, orderId, party, amountSat, payBy, cltvBlocksFor (holdUntil - ctx.now)⟩ db

/-- `planCustomerDeposit`: without a price the clock tries again; a draft whose deadline leaves no
time to pay is dropped. -/
def planCustomerDeposit (draft : LnDraftRow) (pct : ℚ) (db : LnDb) : Except Abort LnDb :=
  match ctx.price.filter (· ≠ 0) with
  | none => .ok db
  | some btc =>
    let payBy := min (ctx.now + customerDepositPaySec) (draft.deadline - minClaimLeadSec)
    if payBy - ctx.now < minDepositPayWindowSec then .ok (deleteDraft draft.orderId db)
    else do
      let amountSat := depositSat (Binary64.mul (Binary64.div draft.price btc) (10 ^ 8)) pct
      let (_, db) ← ctx.planLnHold .lnCustomerDeposit draft.orderId draft.customer amountSat payBy
        (draft.deadline + depositMarginSec) db
      return db

/-- `onCustomerDepositAccepted`: the deposit is in, so the order comes to be. -/
def onCustomerDepositAccepted (inv : HoldRow) (db : LnDb) : Except Abort LnDb :=
  match getDraft inv.orderId db with
  | none => .ok (dispose inv.paymentHash .cancel db)
  | some draft =>
    if draft.customer ≠ inv.party ∨ (getOrder inv.orderId db).isSome then
      .ok (dispose inv.paymentHash .cancel db)
    else
      insertOrder ctx.now
        { orderId := draft.orderId, customer := draft.customer, price := draft.price
          deadline := draft.deadline, customerDepositHash := some inv.paymentHash }
        (deleteDraft draft.orderId db)

/-- `planSponsorDeposit`. -/
def planSponsorDeposit (order : LnOrderRow) (pct : ℚ) (db : LnDb) : Except Abort LnDb :=
  match order.sponsor, ctx.price.bind (computePayoutSat order.price) with
  | some sponsor, some basis => do
    let (_, db) ← ctx.planLnHold .lnSponsorDeposit order.orderId sponsor (depositSat basis pct)
      (ctx.now + sponsorDepositPaySec) (order.deadline + depositMarginSec) db
    return db
  | _, _ => .ok db

/-- `onSponsorDepositAccepted`. -/
def onSponsorDepositAccepted (inv : HoldRow) (db : LnDb) : Except Abort LnDb :=
  match getOrder inv.orderId db with
  | none => .ok (dispose inv.paymentHash .cancel db)
  | some order =>
    if order.state ≠ .claimed ∨ order.sponsor ≠ some inv.party ∨ order.pendingClose.isSome then
      .ok (dispose inv.paymentHash .cancel db)
    else updateOrder ctx.now order.orderId
      (fun o => { o with sponsorDepositHash := some inv.paymentHash }) db

/-- What `revertClaim` asks to be given back: the sponsor's deposit and the escrow in the making. -/
def revertDisposals (order : LnOrderRow) (db : LnDb) : List HoldRow :=
  (holdsOf order.orderId lnHoldPurposes db).filter fun inv =>
    isLiveHold inv && (inv.purpose = .lnEscrow ||
      (inv.purpose = .lnSponsorDeposit && some inv.party = order.sponsor))

/-- `revertClaim`: the claim is undone, nobody loses anything. -/
def revertClaim (order : LnOrderRow) (db : LnDb) : Except Abort LnDb :=
  updateOrder ctx.now order.orderId (fun o => { o with
      state := .requested, sponsor := none, claimedAt := none, payoutSat := none
      escrowHash := none, sponsorDepositHash := none })
    ((revertDisposals order db).foldl (fun db inv => dispose inv.paymentHash .cancel db) db)

/-! ## Approval -/

/-- `sponsorDepositRequired`: only public trades, and only when the setting is on. -/
def sponsorDepositRequired (order : LnOrderRow) (db : LnDb) : Bool :=
  order.designatedSponsor.isNone && 0 < db.track.settings.sponsorDepositPct

/-- `approveBlocker`: why the claim cannot be approved now, price aside. -/
def approveBlocker (order : LnOrderRow) (db : LnDb) : Option String :=
  if order.state ≠ .claimed ∨ order.sponsor = none then some "not-claimed"
  else if order.pendingClose.isSome then some "closing"
  else if order.escrowHash.isSome then some "in-progress"
  else if sponsorDepositRequired order db ∧ order.sponsorDepositHash = none then
    some "deposit-unpaid"
  else if escrowPayBy order.deadline ctx.now - ctx.now < minEscrowPayWindowSec then some "too-late"
  else none

/-- `approve`: the one place where the amounts are fixed. -/
def approve (order : LnOrderRow) (db : LnDb) : Except Abort (Option String × LnDb) :=
  match ctx.approveBlocker order db with
  | some blocker => .ok (some blocker, db)
  | none =>
    match ctx.price.bind (computePayoutSat order.price) with
    | none => .ok (some "no-price", db)
    | some payoutSat => do
      let payBy := escrowPayBy order.deadline ctx.now
      let holdUntil := max payBy (order.deadline + deadlineGraceSec) + escrowHoldMarginSec
      let (inv, db) ← ctx.planLnHold .lnEscrow order.orderId order.customer
        (computeEscrowSat payoutSat) payBy holdUntil db
      let db ← updateOrder ctx.now order.orderId (fun o =>
        { o with payoutSat := some payoutSat, escrowHash := some inv.paymentHash }) db
      return (none, db)

/-- `requestPayout`: a payout that is pending already is only moved forward. -/
def requestPayout (orderId : OrderId) (db : LnDb) : LnDb := db.enqueue (.own (.payout orderId))

/-! ## Closing -/

/-- `beginClose`: from here on the reason decides everything; `false` when the order is closing or
closed. -/
def beginClose (order : LnOrderRow) (reason : LnCloseReason) (db : LnDb) :
    Except Abort (Bool × LnDb) :=
  if order.pendingClose.isSome ∨ isTerminalState order.state then .ok (false, db)
  else if ¬ canTransition order.state reason.rule.terminal then .error .illegalClose
  else do
    let db ← updateOrder ctx.now order.orderId
      (fun o => { o with pendingClose := some reason }) db
    return (true, db.enqueue (.own (.close order.orderId)))

/-- `onEscrowAccepted`: the escrow is held. -/
def onEscrowAccepted (inv : HoldRow) (db : LnDb) : Except Abort LnDb :=
  match getOrder inv.orderId db with
  | none => .ok (dispose inv.paymentHash .cancel db)
  | some order =>
    if order.escrowHash ≠ some inv.paymentHash then .ok (dispose inv.paymentHash .cancel db)
    else if order.pendingClose.isSome ∨ isTerminalState order.state then .ok db
    else if order.state ≠ .verified then .ok db
    else updateOrder ctx.now order.orderId (fun o => { o with
      state := .escrowed, invoiceDeadline := some (invoiceDeadlineFor ctx.now order.deadline) }) db

/-! ## The hold hooks -/

/-- `created`: the node has made the invoice. -/
def holdCreated (inv : HoldRow) (db : LnDb) : Except Abort LnDb :=
  match inv.purpose with
  | .lnCustomerDeposit =>
    if (getDraft inv.orderId db).isSome then .ok db else .ok (dispose inv.paymentHash .cancel db)
  | .lnSponsorDeposit =>
    match getOrder inv.orderId db with
    | some order =>
      if order.state = .claimed ∧ order.sponsor = some inv.party ∧ order.pendingClose = none then
        .ok db
      else .ok (dispose inv.paymentHash .cancel db)
    | none => .ok (dispose inv.paymentHash .cancel db)
  | .lnEscrow =>
    match getOrder inv.orderId db with
    | some order =>
      if order.state = .claimed ∧ order.escrowHash = some inv.paymentHash ∧
          order.pendingClose = none then
        updateOrder ctx.now order.orderId
          (fun o => { o with state := .verified, escrowBolt11 := some inv.bolt11 }) db
      else .ok (dispose inv.paymentHash .cancel db)
    | none => .ok (dispose inv.paymentHash .cancel db)
  | _ => .ok db

/-- `createFailed`: the node could not make the invoice in time. -/
def holdCreateFailed (inv : HoldRow) (db : LnDb) : Except Abort LnDb :=
  match inv.purpose with
  | .lnCustomerDeposit => .ok (deleteDraft inv.orderId db)
  | .lnSponsorDeposit =>
    match getOrder inv.orderId db with
    | some order =>
      if order.state = .claimed ∧ order.sponsor = some inv.party ∧ order.pendingClose = none then
        ctx.revertClaim order db
      else .ok db
    | none => .ok db
  | .lnEscrow =>
    match getOrder inv.orderId db with
    | some order =>
      if order.state = .claimed ∧ order.escrowHash = some inv.paymentHash then
        updateOrder ctx.now order.orderId
          (fun o => { o with escrowHash := none, payoutSat := none }) db
      else .ok db
    | none => .ok db
  | _ => .ok db

/-- `accepted`: the user has paid. -/
def holdAccepted (inv : HoldRow) (db : LnDb) : Except Abort LnDb :=
  match inv.purpose with
  | .lnCustomerDeposit => ctx.onCustomerDepositAccepted inv db
  | .lnSponsorDeposit => ctx.onSponsorDepositAccepted inv db
  | .lnEscrow => ctx.onEscrowAccepted inv db
  | _ => .ok db

/-- `nodeCancelled`: the node gave the invoice up by itself. -/
def holdNodeCancelled (before : HoldRow) (db : LnDb) : Except Abort LnDb :=
  match before.purpose with
  | .lnCustomerDeposit => .ok (deleteDraft before.orderId db)
  | .lnSponsorDeposit =>
    match getOrder before.orderId db with
    | some order =>
      if order.state = .claimed ∧ order.sponsor = some before.party ∧
          order.sponsorDepositHash = none ∧ order.pendingClose = none then
        ctx.revertClaim order db
      else .ok db
    | none => .ok db
  | .lnEscrow =>
    match getOrder before.orderId db with
    | some order =>
      if order.escrowHash ≠ some before.paymentHash ∨ order.pendingClose.isSome then .ok db
      else if order.state = .verified then do
        let (_, db) ← ctx.beginClose order .cancelUnpaidEscrow db
        return db
      else if before.status = .accepted then
        -- the held escrow timed out on the node, which the deadlines should have prevented
        match expiryReasonFor order.state order.sponsor.isSome order.accountSentAt.isSome with
        | some reason => do
          let (_, db) ← ctx.beginClose order reason db
          return db
        | none => .ok db
      else .ok db
    | none => .ok db
  | _ => .ok db

/-- `disposed`: a settled escrow is noted on the order; the rest is notices. -/
def holdDisposed (before : HoldRow) (final : HoldFinal) (_via : DisposedVia) (db : LnDb) :
    Except Abort LnDb :=
  if before.purpose ≠ .lnEscrow then .ok db
  else match getOrder before.orderId db with
    | some order =>
      if final = .settled ∧ order.escrowSettled = false then
        updateOrder ctx.now order.orderId (fun o => { o with escrowSettled := true }) db
      else .ok db
    | none => .ok db

/-- `busy`: the close effect of the order records what becomes of its invoices. -/
def holdBusy (inv : HoldRow) (db : LnDb) : Bool :=
  db.effects.any fun e => e.dedup = some ("ln.close:" ++ inv.orderId)

/-- `createLnHoldHooks`. -/
def holdHooks : HoldHooks LnTables LnEffect where
  created := ctx.holdCreated
  createFailed := ctx.holdCreateFailed
  accepted := ctx.holdAccepted
  nodeCancelled := ctx.holdNodeCancelled
  disposed := ctx.holdDisposed
  busy := holdBusy

/-! ## The end of a close -/

/-- `finishClose`: the ends of the invoices, the terminal state, the payout. -/
def finishClose (orderId : OrderId) (finals : List (Hash × HoldFinal)) (db : LnDb) :
    Except Abort LnDb :=
  match getOrder orderId db with
  | none => .ok db
  | some order =>
    match order.pendingClose with
    | none => .ok db
    | some reason => do
      let db ← forEach finals
        (fun f => recordDisposal ctx.holdHooks ctx.now f.1 f.2 .batch) db
      let db ← updateOrder ctx.now orderId (fun o => { o with
        state := reason.rule.terminal, closeReason := some reason, pendingClose := none }) db
      return if reason.rule.terminal = .paid ∨ reason.rule.terminal = .sponsorWins
        then requestPayout orderId db else db

/-- `abandonClose`: the escrow cannot be taken, so a human decides. -/
def abandonClose (orderId : OrderId) (db : LnDb) : Except Abort LnDb :=
  match getOrder orderId db with
  | none => .ok db
  | some order =>
    if order.pendingClose = none then .ok db
    else updateOrder ctx.now orderId (fun o => { o with pendingClose := none }) db

/-- `sponsorDepositOf`. -/
def sponsorDepositOf (order : LnOrderRow) (db : LnDb) : Option HoldRow :=
  match order.sponsor with
  | some sponsor => currentHold .lnSponsorDeposit order.orderId sponsor db
  | none => none

end LnCtx

end LnPay
