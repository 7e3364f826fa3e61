/-
# The watcher and the daemon (`daemon/src/onchain/watcher.ts`, `effects.ts`)

A poll reads all orders, then asks the explorer about one after the other and
acts on each in a transaction of its own.  While it waits for an answer anything
else may happen, so it acts only when the version of the order is still the one
it has asked about.

  poll ─→ snapshot of the rows ─→ (answers) gather ─→ apply, one row at a time

`OcWorld.step` takes one step of the daemon: a request, a command, a hook of the
hold invoices, the beginning of a poll, one row of it, a restart.  The hooks may
be called with any invoice, and the hold table may change in any way.
-/
import LnPay.OcDecide
import LnPay.OcHandlers
import LnPay.TransitionSystem

namespace LnPay

/-- `Facts`. -/
structure Facts where
  funds : Query AddressFunds
  pinned : Option PinnedFacts
  settlementTx : Option (Query TxStatus)

/-- The funds at the address of an order; there is none before the claim. -/
def fundsOf (order : OnchainOrder) (answers : ChainAnswers) : Query AddressFunds :=
  if (given order.escrowAddress).isSome then getAddressFunds answers.utxos answers.tip
  else .known ⟨[], []⟩

/-- `gather`. -/
def gather {P : Type} (lib : BtcSigner P) (order : OnchainOrder) (answers : ChainAnswers) :
    Except String Facts :=
  if isOnchainTerminal order.state then .ok ⟨fundsOf order answers, none, none⟩
  else do
    let pinned ← if (given order.fundingOutpoint).isSome then
        gatherPinnedFacts lib order (fundsOf order answers) answers
      else .ok none
    return ⟨fundsOf order answers, pinned,
      if order.state = .settling ∧ (given order.settlementTxid).isSome then
        some (getTxStatus answers.settlementTx answers.settlementTip)
      else none⟩

/-- `sponsorBondAlive`: from what the hold invoices say. -/
def sponsorBondAlive (order : OnchainOrder) (db : OcDb) : Option Bool :=
  (given order.sponsorDepositHash).bind fun h =>
    match (db.holds.find h).map HoldRow.status with
    | some .accepted => some true
    | some .cancelled | some .settled => some false
    | _ => none

/-- `CATCHUP_WARMUP_SEC`. -/
def ocCatchupWarmupSec : ℤ := 2 * 60

/-- `SIGNATURE_RESEND_SEC`. -/
def signatureResendSec : ℤ := 6 * 3600

/-- `TERMINAL_WATCH_SEC`. -/
def terminalWatchSec : ℤ := 60 * 24 * 3600

/-- `TERMINAL_WATCH_INTERVAL_SEC`. -/
def terminalWatchIntervalSec : ℤ := 10 * 60

/-- `noteStrays`: only when the list has changed. -/
def noteStrays (row : OcRow) (strays : List ChainUtxo) (db : OcDb) : OcDb :=
  let before := (row.ocMeta.strays.map OcUtxo.outpoint).dedup
  if strays.length = before.length ∧ ∀ u ∈ strays, u.outpoint ∈ before then db
  else updateOcMeta row.order.orderId
    (fun m => { m with strays := strays.map fun u => ⟨u.txid, u.vout, u.valueSat⟩ }) db

namespace OcCtx

variable {P : Type} (ctx : OcCtx P)

/-- A transition of the watcher. -/
def transition (row : OcRow) (patch : OnchainOrder → OnchainOrder) (db : OcDb) :
    Except Abort (OnchainOrder × OcDb) :=
  updateOc ctx.now row.order.orderId patch id db

/-- What a spend that is not on record is taken for. -/
def adoptedKind (order : OnchainOrder) (leaf : Option EscrowLeafName) : Option SettlementKind :=
  if leaf = some .release then some .release
  else order.settlementKind.filter fun kind =>
    leaf = some (settlementLeafFor (settlementPathForKind kind))

/-- `observeSpend`: the record follows the chain. -/
def observeSpend (row : OcRow) (txid : String) (leaf : Option EscrowLeafName) (db : OcDb) :
    Except Abort OcDb :=
  if leaf = some .timelock then do
    let (swept, db) ← ctx.transition row (fun o => { o with
      state := .swept, settlementTxid := some txid }) db
    return applyOutcome swept .swept db
  else match adoptedKind row.order leaf with
  | none => .ok db
  | some adopted =>
    if row.order.state = .settling then
      (ctx.transition row (fun o => { o with
        settlementKind := some adopted, settlementTxid := some txid }) db).map Prod.snd
    else (ctx.transition row (fun o => { o with
      state := .settling, settlementKind := some adopted, settlementTxid := some txid
      settlingAt := some ctx.now }) db).map Prod.snd

/-- `execute`. -/
def execute (row : OcRow) (action : OnchainAction) (db : OcDb) : Except Abort OcDb :=
  let order := row.order
  match action with
  | .idle | .hold _ | .anomaly _ | .warn _ | .disputeSoon => .ok db
  | .fund outpoint confirmations priceKrw =>
    match releaseFeeFor ctx.env order row.ocMeta with
    | none => .ok db
    | some releaseFeeSat =>
      if order.amountSat - releaseFeeSat ≤ 0 then .ok db
      else (ctx.transition row (fun o => { o with
        state := .funded
        fundingOutpoint := some (formatOutpoint outpoint)
        fundingConfs := some confirmations
        fundedAt := some ctx.now
        presignDeadline := some (ctx.now + presignWindowSec)
        priceKrw := some priceKrw
        payoutSat := some (order.amountSat - releaseFeeSat)
        releaseFeeSat := some releaseFeeSat }) db).map Prod.snd
  | .fold outpoint confirmations kind =>
    (ctx.decideSettlement order.orderId kind (some (outpoint, confirmations)) db).map Prod.snd
  | .settle kind => (ctx.decideSettlement order.orderId kind none db).map Prod.snd
  | .cancel => do
    let outcome : OnchainOutcome :=
      if order.state = .listed then
        if 0 < order.expiration ∧ order.expiration ≤ ctx.now then .cancelExpired
        else .cancelByCustomer
      else .cancelNoFunding
    let (cancelled, db) ← ctx.transition row (fun o => { o with state := .cancelled }) db
    return dropSponsorCandidates order.orderId (applyOutcome cancelled outcome db)
  | .reorg => (ctx.transition row (fun o => { o with
      state := .bonded
      fundingDeadline := some (ctx.now + fundingWindowSec)
      fundingOutpoint := none
      fundingConfs := none
      fundedAt := none
      presignDeadline := none
      priceKrw := none
      payoutSat := none
      releaseFeeSat := none
      presignedAt := none
      accountDeadline := none
      accountSentAt := none
      krwDeadline := none
      accountDisputedAt := none }) db).map Prod.snd
  | .dispute => (ctx.transition row (fun o => { o with
      state := .disputed, disputedAt := some ctx.now }) db).map Prod.snd
  | .confirmed =>
    match order.settlementKind with
    | none => .ok db
    | some kind => do
      let (done, db) ← ctx.transition row (fun o => { o with state := kind.terminal }) db
      return applyOutcome done (.kind kind) db
  | .observeSpend txid leaf => ctx.observeSpend row txid leaf db
  | .rebroadcast =>
    match row.ocMeta.outbox with
    | some outbox => .ok (requestBroadcast order.orderId outbox.txid none db)
    | none => .ok db

/-- `maybeResendSignature`. -/
def maybeResendSignature (row : OcRow) (db : OcDb) : Except Abort OcDb :=
  if ¬ (row.order.state = .refunding ∨
      (row.order.state = .disputed ∧ row.order.settlementKind.isSome)) then .ok db
  else if row.ocMeta.lastSignRequestAt.any fun t => ctx.now - t < signatureResendSec then .ok db
  else (ctx.requestSettlementSignature row.order.orderId db).map Prod.snd

/-- The strays to be noted, by the state after the action. -/
def straysOf (order : OnchainOrder) (action : OnchainAction) (funds : AddressFunds) :
    List ChainUtxo :=
  if order.state = .bonded then
    match action with
    | .anomaly _ => strayUtxos funds none
    | _ => []
  else strayUtxos funds (parseOutpoint order.fundingOutpoint)

/-- What the watcher knows when it decides. -/
def watchContext (row : OcRow) (facts : Facts) (db : OcDb) : OnchainWatchContext where
  now := ctx.now
  funds := facts.funds
  pinned := facts.pinned
  settlementTx := facts.settlementTx
  btcPriceKrw := ctx.price.filter (· ≠ 0)
  sponsorBondAlive := if row.order.state = .bonded then sponsorBondAlive row.order db else none
  accountInfoSent := (nonzero row.order.accountSentAt).isSome
  canRebroadcast := row.ocMeta.outbox.any fun outbox => some outbox.txid = row.order.settlementTxid

/-- The rest of `apply`: what is done whatever the state is. -/
def afterAction (orderId : OrderId) (action : OnchainAction) (facts : Facts) (db : OcDb) :
    Except Abort OcDb :=
  match getOc orderId db with
  | none => .ok db
  | some fresh =>
    let noted := match facts.funds with
      | .known funds =>
        if (given fresh.order.escrowAddress).isSome ∧ ¬ isOnchainTerminal fresh.order.state then
          noteStrays fresh (straysOf fresh.order action funds) db
        else db
      | .unknown _ => db
    ctx.maybeResendSignature fresh noted

/-- `apply`: only if the order has not changed meanwhile. -/
def applyFacts (startedAt : ℤ) (orderId : OrderId) (version : ℕ) (facts : Facts) (db : OcDb) :
    Except Abort OcDb :=
  match (getOc orderId db).filter fun row => row.version = version with
  | none => .ok db
  | some row =>
    if isOnchainTerminal row.order.state then
      match facts.funds with
      | .known funds => .ok (noteStrays row (strayUtxos funds none) db)
      | .unknown _ => .ok db
    else do
      let action := decideOnchainAction row.order (ctx.watchContext row facts db)
      let warmedUp := ocCatchupWarmupSec ≤ ctx.now - startedAt
      let db ← if warmedUp ∨ ¬ action.byClock then ctx.execute row action db else .ok db
      ctx.afterAction orderId action facts db

/-- `onDone` of the broadcast: a rescue is marked as sent. -/
def broadcastDone (orderId : OrderId) (txid : String) (rescueKey : Option String) (db : OcDb) :
    OcDb :=
  match (given rescueKey).bind fun key => ((getOc orderId db).bind fun row =>
      rescueOf key row.ocMeta).map fun rescue => (key, rescue) with
  | none => db
  | some (key, rescue) =>
    updateOcMeta orderId (setRescue key { rescue with broadcastTxid := some txid }) db

end OcCtx

/-! ## The daemon -/

/-- The daemon: its ledger, its clock, and what it holds in memory. -/
structure OcWorld where
  db : OcDb
  now : ℤ
  startedAt : ℤ
  /-- the rows of the poll that is going on -/
  polling : List OcRow
  lastTerminalCheck : OrderId → Option ℤ

/-- A call of a hook. -/
inductive HookCall
  | created
  | createFailed
  | accepted
  | nodeCancelled
  | disposed (final : HoldFinal) (via : DisposedVia)
  deriving DecidableEq, Repr

/-- One step of the daemon. -/
inductive OcInput
  | tick (seconds : ℕ)
  | request (action : OcAction) (event : OcEvent) (price : Option ℚ)
  | command (cmd : OcCommand) (orderId : OrderId) (version : ℕ) (price : Option ℚ)
  | hook (call : HookCall) (inv : HoldRow)
  | holdSet (paymentHash : Hash) (patch : HoldPatch)
  | finish (e : Effect OcEffect)
  | broadcastDone (orderId : OrderId) (txid : String) (rescueKey : Option String)
  | refreshFees (fees : FeeEstimates)
  | setAccept (acceptNewOrders : Bool)
  | poll
  | judge (answers : ChainAnswers) (price : Option ℚ)
  | restart

namespace OcWorld

variable {P : Type} (env : OcEnv P)

/-- A ledger without rows. -/
def emptyDb : OcDb := ⟨KeyedTable.empty, [], ⟨KeyedTable.empty, KeyedTable.empty, none, true⟩⟩

/-- The world in which nothing has happened. -/
def init (now : ℤ) : OcWorld := ⟨emptyDb, now, now, [], fun _ => none⟩

/-- The transaction's context. -/
def ctx (w : OcWorld) (price : Option ℚ) : OcCtx P := ⟨env, w.now, price⟩

/-- A transaction that throws leaves the ledger as it was. -/
def transact (w : OcWorld) (r : Except Abort OcDb) : OcWorld :=
  match r with
  | .ok db => { w with db := db }
  | .error _ => w

/-- Runs a hook. -/
def runHook (w : OcWorld) (call : HookCall) (inv : HoldRow) : Except Abort OcDb :=
  let hooks := (w.ctx env none).bondHooks
  match call with
  | .created => hooks.created inv w.db
  | .createFailed => hooks.createFailed inv w.db
  | .accepted => hooks.accepted inv w.db
  | .nodeCancelled => hooks.nodeCancelled inv w.db
  | .disposed final via => hooks.disposed inv final via w.db

/-- `due`: an order that has ended is looked at for a while, and not often. -/
def due (w : OcWorld) (row : OcRow) : Bool :=
  if ¬ isOnchainTerminal row.order.state then true
  else if (given row.order.escrowAddress).isNone then false
  else if terminalWatchSec < w.now - row.order.updatedAt then false
  else !(w.lastTerminalCheck row.order.orderId).any fun last =>
    w.now - last < terminalWatchIntervalSec

/-- The check of an ended order is remembered. -/
def checked (w : OcWorld) (row : OcRow) : OcWorld :=
  if isOnchainTerminal row.order.state then
    { w with lastTerminalCheck := fun id =>
        if id = row.order.orderId then some w.now else w.lastTerminalCheck id }
  else w

/-- One row of a poll.  A transaction that throws ends the poll. -/
def judge (w : OcWorld) (row : OcRow) (rest : List OcRow) (answers : ChainAnswers)
    (price : Option ℚ) : OcWorld :=
  if ¬ w.due row then { w with polling := rest }
  else
    let w := w.checked row
    match gather env.lib row.order answers with
    | .error _ => { w with polling := rest }
    | .ok facts =>
      match (w.ctx env price).applyFacts w.startedAt row.order.orderId row.version facts w.db with
      | .ok db => { w with db := db, polling := rest }
      | .error _ => { w with polling := [] }

/-- One step. -/
def step (w : OcWorld) : OcInput → Option OcWorld
  | .tick seconds => some { w with now := w.now + seconds }
  | .request action event price =>
    some (w.transact (((w.ctx env price).handleOc action event w.db).map Prod.snd))
  | .command cmd orderId version price =>
    some (w.transact (((w.ctx env price).ocCommand cmd orderId version w.db).map Prod.snd))
  | .hook call inv => some (w.transact (w.runHook env call inv))
  | .holdSet h patch => some { w with db := setHold w.now h patch w.db }
  | .finish e => some { w with db := w.db.finish e }
  | .broadcastDone orderId txid rescueKey =>
    some { w with db := OcCtx.broadcastDone orderId txid rescueKey w.db }
  | .refreshFees fees =>
    some { w with db := { w.db with track := { w.db.track with fees := some (w.now, fees) } } }
  | .setAccept b =>
    some { w with db := { w.db with track := { w.db.track with acceptNewOrders := b } } }
  | .poll => if w.polling = [] then some { w with polling := allOc w.db } else none
  | .judge answers price =>
    match w.polling with
    | [] => none
    | row :: rest => some (w.judge env row rest answers price)
  | .restart => some { w with
      startedAt := w.now, polling := [], lastTerminalCheck := fun _ => none }

end OcWorld

/-- The on-chain daemon as a transition system. -/
def ocSystem {P : Type} (env : OcEnv P) : TransitionSystem OcWorld OcInput where
  init w := ∃ now, w = OcWorld.init now
  step := OcWorld.step env

end LnPay
