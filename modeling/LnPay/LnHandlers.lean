/-
# Requests and commands of the Lightning track (`daemon/src/ln/handlers.ts`, `commands.ts`)

A handler answers `ok` or `ignored` with the reason that is kept in the inbox;
an operator's command answers `ok` or an error.  The sender is checked first:
anyone can sign a request.
-/
import LnPay.LnFlow

namespace LnPay

/-- `LnDesignatedOrderPayload`; a price or deadline that is not an integer reads as `none`. -/
structure LnDesignatedOrder where
  price : Option ℤ
  deadline : Option ℤ
  designatedSponsor : Pubkey

/-- An inbox event of the Lightning track. -/
abbrev LnEvent := InboxEvent LnDesignatedOrder

/-- The actions of the Lightning track that touch the ledger. -/
inductive LnAction
  | orderRequest | designatedOrderRequest | claim | sponsorInvoice | accountInfo
  | remitRequest | paymentConfirm | cancelRequest
  deriving DecidableEq, Repr

/-- The operator's commands on an order. -/
inductive LnCommand
  | approve | revertClaim | rule (winner : String) | forceClose | retryPayout | manualPayout
  | markDisbursed | revealRequest
  deriving DecidableEq, Repr

/-- `MAX_PRICE_KRW`. -/
def maxPriceKrw : ℤ := 100000000

/-- `MAX_OPEN_DESIGNATED_PER_CUSTOMER`. -/
def maxOpenDesignatedPerCustomer : ℕ := 3

/-- A handler's answer with the ledger it leaves. -/
abbrev Handled := Except Abort (HandlerResult × LnDb)

namespace LnCtx

variable (ctx : LnCtx)

/-- The request is not accepted. -/
def ignored (reason : String) (db : LnDb) : Handled := .ok (.ignored reason, db)

/-- The request is accepted and leaves this ledger. -/
def accepted (db : Except Abort LnDb) : Handled := db.map fun db => (.ok, db)

/-- `knownHeight`: the last block height the clock wrote down. -/
def knownHeight (db : LnDb) : Option ℕ := db.track.height.filter (0 < ·)

/-! ## Order requests -/

/-- `orderTermsBlocker`: why these terms cannot be taken. -/
def orderTermsBlocker (orderId : OrderId) (price deadline : Option ℤ) (db : LnDb) :
    Option String :=
  match price with
  | none => some "bad-price"
  | some price =>
    if price ≤ 0 ∨ price > maxPriceKrw then some "bad-price"
    else match deadline with
      | none => some "bad-deadline"
      | some deadline =>
        if deadline - ctx.now < minClaimLeadSec then some "deadline-too-close"
        else if deadline - ctx.now > maxDeadlineLeadSec then some "deadline-too-far"
        else if (getOrder orderId db).isSome ∨ (getDraft orderId db).isSome then some "duplicate"
        else none

/-- `orderRequest`: without a deposit the order is there at once, else a draft waits for it. -/
def orderRequest (event : LnEvent) (db : LnDb) : Handled :=
  match (extractOrderId event.tags).filter isOrderId with
  | none => ignored "bad-order-id" db
  | some orderId =>
    let price := (tagValue event.tags "price").bind ctx.env.toInteger
    let deadline := (tagValue event.tags "deadline").bind ctx.env.toInteger
    match ctx.orderTermsBlocker orderId price deadline db with
    | some blocker => ignored blocker db
    | none =>
      let price := (price.getD 0).toNat
      let deadline := deadline.getD 0
      let pct := db.track.settings.customerDepositPct
      if pct = 0 then
        accepted (insertOrder ctx.now { orderId, customer := event.pubkey, price, deadline } db)
      else
        let draft : LnDraftRow := ⟨orderId, event.pubkey, price, deadline, ctx.now⟩
        accepted (insertDraft draft db >>= ctx.planCustomerDeposit draft pct)

/-- `designatedOrderRequest`: the counterparty is named, so there is no deposit. -/
def designatedOrderRequest (event : LnEvent) (db : LnDb) : Handled :=
  match (extractOrderId event.tags).filter isOrderId with
  | none => ignored "bad-order-id" db
  | some orderId =>
    match event.content with
    | .undecryptable => ignored "undecryptable" db
    | .badPayload => ignored "bad-payload" db
    | .payload parsed =>
      if parsed.designatedSponsor = event.pubkey then ignored "self-designated" db
      else match ctx.orderTermsBlocker orderId parsed.price parsed.deadline db with
        | some blocker => ignored blocker db
        | none =>
          if openDesignatedCount event.pubkey db ≥ maxOpenDesignatedPerCustomer then
            ignored "too-many-designated" db
          else accepted (insertOrder ctx.now
            { orderId, customer := event.pubkey, price := (parsed.price.getD 0).toNat
              deadline := parsed.deadline.getD 0
              designatedSponsor := some parsed.designatedSponsor } db)

/-! ## Requests about an order -/

/-- `claim`. -/
def claim (event : LnEvent) (order : LnOrderRow) (db : LnDb) : Handled :=
  if order.pendingClose.isSome then ignored "closing" db
  else if ¬ canTransition order.state .claimed then ignored "bad-state" db
  else if event.pubkey = order.customer then ignored "self-claim" db
  else if order.designatedSponsor.isSome ∧ some event.pubkey ≠ order.designatedSponsor then
    ignored "not-designated" db
  else if order.deadline - ctx.now < minClaimLeadSec then ignored "deadline-too-close" db
  else
    let claimed := order.stamp (fun o => { o with
      state := .claimed, sponsor := some event.pubkey, claimedAt := some ctx.now }) ctx.now
    accepted do
      let db ← updateOrder ctx.now order.orderId (fun o => { o with
        state := .claimed, sponsor := some event.pubkey, claimedAt := some ctx.now }) db
      if sponsorDepositRequired claimed db then
        ctx.planSponsorDeposit claimed db.track.settings.sponsorDepositPct db
      else return db

/-- Whether a payout is due and not recorded. -/
def payoutPending (order : LnOrderRow) : Bool :=
  (order.state = .paid || order.state = .sponsorWins) && !order.disbursed

/-- The escrow ends too soon to open the account gate over it. -/
def escrowEndingSoon (order : LnOrderRow) (db : LnDb) : Bool :=
  match order.escrowHash.bind db.holds.find, knownHeight db with
  | some escrow, some height =>
    match escrow.htlcExpiryHeight with
    | some expiry => expiry ≠ 0 && (expiry : ℤ) - height < invoiceEscrowMinBlocks
    | none => false
  | _, _ => false

/-- `sponsorInvoice`: once the payout has begun, an invoice is replaced only after the daemon has
seen the old one dead. -/
def sponsorInvoice (event : LnEvent) (order : LnOrderRow) (db : LnDb) : Handled :=
  if some event.pubkey ≠ order.sponsor then ignored "not-sponsor" db
  else if order.pendingClose.isSome then ignored "closing" db
  else match ((tagValue event.tags "bolt11").map jsTrim).filter (· ≠ "") with
  | none => ignored "no-bolt11" db
  | some bolt11 =>
    if ¬ (order.state = .escrowed ∨ order.state = .invoiced ∨ order.state = .remitted ∨
        payoutPending order) then ignored "bad-state" db
    else if payoutPending order ∧ order.payoutError ≠ some payoutInvoiceExpired then
      ignored "payout-in-progress" db
    else if order.state = .escrowed ∧
        ∃ deadline ∈ order.invoiceDeadline, deadline < min event.createdAt ctx.now then
      ignored "after-invoice-deadline" db
    else if order.sponsorInvoice = some bolt11 then ignored "same-invoice" db
    else match readBolt11 ctx.env bolt11 with
    | none => ignored "rejected:DECODE_FAILED" db
    | some info =>
      if isOurs info.paymentHash db then ignored "our-invoice" db
      else if ¬ isPayoutAmountExact order.payoutSat info.amountSat then
        ignored "rejected:AMOUNT_MISMATCH" db
      else if info.expiresAt - ctx.now < minSponsorInvoiceLifetimeSec then
        ignored "rejected:EXPIRES_TOO_SOON" db
      else if (order.state = .escrowed ∨ order.state = .invoiced) ∧ escrowEndingSoon order db then
        ignored "rejected:ESCROW_ENDING_SOON" db
      else if order.state = .escrowed then
        accepted (updateOrder ctx.now order.orderId
          (fun o => { o with state := .invoiced, sponsorInvoice := some bolt11 }) db)
      else accepted do
        let db ← updateOrder ctx.now order.orderId
          (fun o => { o with sponsorInvoice := some bolt11, payoutError := none }) db
        return if payoutPending order then requestPayout order.orderId db else db

/-- `accountInfo`: the account itself goes to the sponsor, the daemon keeps a commitment. -/
def accountInfo (event : LnEvent) (order : LnOrderRow) (db : LnDb) : Handled :=
  if event.pubkey ≠ order.customer then ignored "not-customer" db
  else if order.state ≠ .invoiced ∧ order.state ≠ .remitted then ignored "bad-state" db
  else match (tagValue event.tags "commitment").filter isHex64 with
  | none => ignored "no-commitment" db
  | some commitment =>
    if order.accountCommitment = some commitment then ignored "same-account" db
    else accepted (updateOrder ctx.now order.orderId (fun o => { o with
      accountSentAt := some (order.accountSentAt.getD ctx.now)
      accountCommitment := some commitment }) db)

/-- `remitRequest`. -/
def remitRequest (event : LnEvent) (order : LnOrderRow) (db : LnDb) : Handled :=
  if some event.pubkey ≠ order.sponsor then ignored "not-sponsor" db
  else if order.pendingClose.isSome then ignored "closing" db
  else if order.state ≠ .invoiced then ignored "bad-state" db
  else if event.createdAt > order.deadline + deadlineGraceSec then ignored "after-deadline" db
  else accepted (updateOrder ctx.now order.orderId
    (fun o => { o with state := .remitted, remittedAt := some ctx.now }) db)

/-- `paymentConfirm`: only begins to close; `paid` comes when the escrow is settled. -/
def paymentConfirm (event : LnEvent) (order : LnOrderRow) (db : LnDb) : Handled :=
  if event.pubkey ≠ order.customer then ignored "not-customer" db
  else if order.pendingClose.isSome then ignored "closing" db
  else if order.state ≠ .invoiced ∧ order.state ≠ .remitted then ignored "bad-state" db
  else accepted ((ctx.beginClose order .paid db).map Prod.snd)

/-- The answer to a request that begins to close. -/
def closeAnswer (r : Except Abort (Bool × LnDb)) : Handled :=
  r.map fun (began, db) => (if began then .ok else .ignored "closing", db)

/-- `cancelRequest`: before the deposit is paid the draft goes; after the escrow the customer alone
cannot leave. -/
def cancelRequest (event : LnEvent) (db : LnDb) : Handled :=
  match (extractOrderId event.tags).filter (· ≠ "") with
  | none => ignored "no-order" db
  | some orderId =>
    match getDraft orderId db with
    | some draft =>
      if draft.customer ≠ event.pubkey then ignored "not-customer" db
      else
        let db := deleteDraft orderId db
        match currentHold .lnCustomerDeposit orderId draft.customer db with
        | some dep => accepted (.ok (dispose dep.paymentHash .cancel db))
        | none => accepted (.ok db)
    | none =>
      match getOrder orderId db with
      | none => ignored "unknown-order" db
      | some order =>
        if event.pubkey ≠ order.customer then ignored "not-customer" db
        else if order.pendingClose.isSome then ignored "closing" db
        else if order.state = .requested then
          closeAnswer (ctx.beginClose order .cancelCustomer db)
        else if order.state = .claimed ∨ order.state = .verified then
          closeAnswer (ctx.beginClose order .cancelCustomerAfterClaim db)
        else ignored "bad-state" db

/-- `withOrder`: the requests that need an order to be there. -/
def withOrder (handler : LnEvent → LnOrderRow → LnDb → Handled) (event : LnEvent) (db : LnDb) :
    Handled :=
  match (extractOrderId event.tags).filter (· ≠ "") with
  | none => ignored "no-order" db
  | some orderId =>
    match getOrder orderId db with
    | none => ignored "unknown-order" db
    | some order => handler event order db

/-- `createLnHandlers`: the handler of an action. -/
def handle : LnAction → LnEvent → LnDb → Handled
  | .orderRequest => ctx.orderRequest
  | .designatedOrderRequest => ctx.designatedOrderRequest
  | .claim => withOrder ctx.claim
  | .sponsorInvoice => withOrder ctx.sponsorInvoice
  | .accountInfo => withOrder ctx.accountInfo
  | .remitRequest => withOrder ctx.remitRequest
  | .paymentConfirm => withOrder ctx.paymentConfirm
  | .cancelRequest => ctx.cancelRequest

/-! ## Operator commands -/

/-- A command's answer with the ledger it leaves. -/
abbrev Commanded := Except Abort (Option String × LnDb)

/-- `ln.approve`. -/
def cmdApprove (order : LnOrderRow) (db : LnDb) : Commanded := ctx.approve order db

/-- `ln.revert-claim`. -/
def cmdRevertClaim (order : LnOrderRow) (db : LnDb) : Commanded :=
  if order.state ≠ .claimed then .ok (some "bad-state", db)
  else if order.pendingClose.isSome then .ok (some "closing", db)
  else (ctx.revertClaim order db).map (none, ·)

/-- The answer to a command that begins to close. -/
def closeCommand (r : Except Abort (Bool × LnDb)) : Commanded :=
  r.map fun (began, db) => (if began then none else some "closing", db)

/-- `ln.rule`: a dispute is decided, after the sponsor's remittance only. -/
def cmdRule (winner : String) (order : LnOrderRow) (db : LnDb) : Commanded :=
  if winner ≠ "sponsor" ∧ winner ≠ "customer" then .ok (some "bad-args", db)
  else if order.state ≠ .remitted then .ok (some "bad-state", db)
  else closeCommand
    (ctx.beginClose order (if winner = "sponsor" then .sponsorWins else .customerWins) db)

/-- `ln.force-close`. -/
def cmdForceClose (order : LnOrderRow) (db : LnDb) : Commanded :=
  if order.state ≠ .escrowed ∧ order.state ≠ .invoiced then .ok (some "bad-state", db)
  else closeCommand (ctx.beginClose order .adminClosed db)

/-- `ln.retry-payout`. -/
def cmdRetryPayout (order : LnOrderRow) (db : LnDb) : Commanded :=
  if order.state ≠ .paid ∧ order.state ≠ .sponsorWins then .ok (some "bad-state", db)
  else if order.disbursed then .ok (some "already-disbursed", db)
  else .ok (none, requestPayout order.orderId db)

/-- `ln.manual-payout`: asks the payout to stop; it has stopped when the error reads `manual`. -/
def cmdManualPayout (order : LnOrderRow) (db : LnDb) : Commanded :=
  if order.state ≠ .paid ∧ order.state ≠ .sponsorWins then .ok (some "bad-state", db)
  else if order.disbursed then .ok (some "already-disbursed", db)
  else if isManualPayout order.payoutError then .ok (some "already-manual", db)
  else do
    let db ← updateOrder ctx.now order.orderId
      (fun o => { o with payoutError := some payoutManualRequested }) db
    return (none, requestPayout order.orderId db)

/-- `ln.mark-disbursed`: the operator has paid by hand. -/
def cmdMarkDisbursed (order : LnOrderRow) (db : LnDb) : Commanded :=
  if order.disbursed then .ok (some "already-disbursed", db)
  else if order.payoutError ≠ some payoutManual then .ok (some "not-manual", db)
  else (updateOrder ctx.now order.orderId (fun o => { o with disbursed := true }) db).map (none, ·)

/-- `ln.reveal-request`: only a message to the sponsor. -/
def cmdRevealRequest (order : LnOrderRow) (db : LnDb) : Commanded :=
  if order.sponsor = none then .ok (some "no-sponsor", db)
  else if order.accountCommitment = none then .ok (some "no-account", db)
  else .ok (none, db)

/-- The body of a command. -/
def runCommand : LnCommand → LnOrderRow → LnDb → Commanded
  | .approve => ctx.cmdApprove
  | .revertClaim => ctx.cmdRevertClaim
  | .rule winner => ctx.cmdRule winner
  | .forceClose => ctx.cmdForceClose
  | .retryPayout => cmdRetryPayout
  | .manualPayout => ctx.cmdManualPayout
  | .markDisbursed => ctx.cmdMarkDisbursed
  | .revealRequest => cmdRevealRequest

/-- `registerLnCommands`: a command runs only on the version of the order it was given for. -/
def command (cmd : LnCommand) (orderId : OrderId) (version : ℕ) (db : LnDb) : Commanded :=
  match getOrder orderId db with
  | none => .ok (some "unknown-order", db)
  | some order =>
    if order.version ≠ version then .ok (some "stale-version", db)
    else ctx.runCommand cmd order db

end LnCtx

end LnPay
