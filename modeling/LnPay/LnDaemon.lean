/-
# The Lightning daemon and its node

`LnWorld` is the daemon's ledger together with what it holds in memory (the
effect that is running, a lookup that has been answered), the node, and the
clock.  `LnWorld.step` takes one step of any party:

* the daemon handles a request or a command, runs its clock, observes a lookup,
  starts an effect, goes on with one, or crashes and comes back,
* the node serves the call the daemon awaits, accepts or gives up an HTLC,
  finishes a payment,
* time passes.

Effects run one at a time; everything else may happen at each of their awaits.
A transaction that throws leaves the ledger as it was.

`calls` and `observed` are written and never read by the daemon: the node calls
that took effect, and the lookups that `observe` has acted on with the time they
were made.  The on-chain track plans its own invoices in the same table (`otherTrack`).
-/
import LnPay.TransitionSystem
import LnPay.LnEffects
import LnPay.LnHandlers
import LnPay.LnWatcher

namespace LnPay

/-- A payment attempt on the node; `orderId` is `none` for one the operator made by hand. -/
structure Payment where
  orderId : Option OrderId
  paymentHash : Hash
  status : PayStatus
  deriving DecidableEq, Repr

/-- The run of an effect, suspended at an await. -/
structure LnRunning where
  effect : Effect LnEffect
  await : LnAwait
  answer : Option LnAnswer

/-- A lookup made by `poll`, on its way to `observe`. -/
structure Polled where
  paymentHash : Hash
  lookup : Option HoldLookup
  askedAt : ℤ

/-- The daemon, its node, and the time. -/
structure LnWorld where
  db : LnDb
  now : ℤ
  startedAt : ℤ
  running : Option LnRunning
  polled : Option Polled
  node : LnNode
  payments : List Payment
  calls : List (Effect LnEffect × NodeCall)
  observed : List (Hash × ℤ)

/-- One step of somebody. -/
inductive LnInput
  | tick (seconds : ℕ)
  | request (action : LnAction) (event : LnEvent) (price : Option ℚ)
  | command (cmd : LnCommand) (orderId : OrderId) (version : ℕ) (price : Option ℚ)
  | configSet (settings : LnSettings)
  | clock (height : Option ℕ) (price : Option ℚ)
  | poll (paymentHash : Hash)
  | observe
  | start (e : Effect LnEffect)
  | resume
  | crash
  | serve (fault : Fault) (bolt11 : String)
  | answer (a : LnAnswer)
  | accept (paymentHash : Hash) (expiryHeight : ℕ)
  | expire (paymentHash : Hash)
  | resolve (index : ℕ) (status : PayStatus)
  | payByHand (paymentHash : Hash)
  | otherTrack (p : HoldPlan)

namespace LnWorld

/-- A transaction: rolled back when it throws. -/
def transact (w : LnWorld) (tx : LnDb → Except Abort LnDb) : LnWorld :=
  match tx w.db with
  | .ok db => { w with db := db }
  | .error _ => w

/-- The node call an await of the hold machine or of a close waits for. -/
def nodeCall : LnAwait → Option NodeCall
  | .hold a => some a.call
  | .closeEscrowLookup _ _ escrow => some (.lookupInvoice escrow.paymentHash)
  | .closeEscrowCall _ _ escrow final => some (final.call escrow.paymentHash)
  | .closeLookup _ inv _ _ => some (.lookupInvoice inv.paymentHash)
  | .closeCall _ inv final _ => some (final.call inv.paymentHash)
  | .payoutTrack _ _ _ | .payoutPay _ _ _ => none

/-- A call that changes an invoice on the node. -/
def isDisposal : NodeCall → Bool
  | .settleInvoice _ | .cancelInvoice _ => true
  | _ => false

/-- What the node may answer about payments: it tracks a hash as not begun or failed only when no
attempt of it is in flight or has succeeded, as succeeded only when one has. -/
def mayAnswer (payments : List Payment) : LnAwait → LnAnswer → Prop
  | .payoutTrack _ _ info, .tracked status =>
    match status with
    | some .succeeded => ∃ p ∈ payments, p.paymentHash = info.paymentHash ∧ p.status = .succeeded
    | some .inFlight => True
    | _ => ∀ p ∈ payments, p.paymentHash = info.paymentHash → p.status = .failed
  | .payoutPay _ _ info, .paid status _ =>
    match status with
    | .succeeded => ∃ p ∈ payments, p.paymentHash = info.paymentHash ∧ p.status = .succeeded
    | .inFlight => True
    | .failed => ∀ p ∈ payments, p.paymentHash = info.paymentHash → p.status = .failed
  | .payoutTrack _ _ _, .threw _ | .payoutPay _ _ _, .threw _ => True
  | _, _ => False

instance (payments : List Payment) (a : LnAwait) (ans : LnAnswer) :
    Decidable (mayAnswer payments a ans) := by
  unfold mayAnswer
  split <;> first | infer_instance | (split <;> infer_instance)

/-- A run takes its next turn: it awaits (a payment is on its way from the moment it is asked for),
or its outcome is recorded in one transaction. -/
def turn (env : LnEnv) (w : LnWorld) (e : Effect LnEffect) : LnTurn → LnWorld
  | .await a =>
    { w with
      running := some ⟨e, a, none⟩
      payments := match a with
        | .payoutPay order _ info => w.payments ++ [⟨some order.orderId, info.paymentHash, .inFlight⟩]
        | _ => w.payments }
  | .done r =>
    let w := { w with running := none }
    match LnCtx.onDone ⟨env, w.now, none⟩ e r (w.db.finish e) with
    | .ok db => { w with db := db }
    | .error err => w.transact (LnCtx.onRetry ⟨env, w.now, none⟩ e ("onDone 실패: " ++ err.message))
  | .retry err =>
    { w with running := none }.transact (LnCtx.onRetry ⟨env, w.now, none⟩ e err)
  | .dead err =>
    { w with running := none }.transact fun db =>
      LnCtx.onDead ⟨env, w.now, none⟩ e err (db.finish e)

/-- One step; `none` when it cannot be taken now. -/
def step (env : LnEnv) (w : LnWorld) : LnInput → Option LnWorld
  | .tick seconds => some { w with now := w.now + seconds }
  | .request action event price =>
    some (w.transact fun db => (LnCtx.handle ⟨env, w.now, price⟩ action event db).map Prod.snd)
  | .command cmd orderId version price =>
    some (w.transact fun db =>
      (LnCtx.command ⟨env, w.now, price⟩ cmd orderId version db).map Prod.snd)
  | .configSet settings =>
    some { w with db := { w.db with track := { w.db.track with settings := settings } } }
  | .clock height price =>
    some ({ w with db := LnCtx.recordHeight height w.db }.transact
      (LnCtx.clock ⟨env, w.now, price⟩ w.startedAt height))
  | .poll h =>
    if polls h w.db then some { w with polled := some ⟨h, w.node.lookupInvoice h, w.now⟩ } else none
  | .observe =>
    match w.polled with
    | none => none
    | some p =>
      let acted := match w.db.holds.find p.paymentHash with
        | some inv => polls p.paymentHash w.db && !disposing inv w.db && !LnCtx.holdBusy inv w.db
        | none => false
      match observe (LnCtx.holdHooks ⟨env, w.now, none⟩) w.now p.paymentHash p.lookup w.db with
      | .ok db => some { w with
          db := db
          polled := none
          observed := if acted then w.observed ++ [(p.paymentHash, p.askedAt)] else w.observed }
      | .error _ => some { w with polled := none }
  | .start e =>
    if w.running.isNone ∧ e ∈ w.db.effects then
      some (w.turn env e (LnCtx.startRun ⟨env, w.now, none⟩ e w.db))
    else none
  | .resume =>
    match w.running with
    | some ⟨e, a, some answer⟩ =>
      some (w.turn env e (LnCtx.resumeRun ⟨env, w.now, none⟩ a answer w.db))
    | _ => none
  | .crash => some { w with running := none, polled := none, startedAt := w.now }
  | .serve fault bolt11 =>
    match w.running with
    | some ⟨e, a, none⟩ =>
      match nodeCall a with
      | none => none
      | some call =>
        let (node, answer) := w.node.serve fault bolt11 call
        some { w with
          running := some ⟨e, a, some (.node answer)⟩
          node := node
          calls := if isDisposal call ∧ fault ≠ .lostRequest ∧ (w.node.perform bolt11 call).isSome
            then w.calls ++ [(e, call)] else w.calls }
    | _ => none
  | .answer ans =>
    match w.running with
    | some ⟨e, a, none⟩ =>
      if mayAnswer w.payments a ans then some { w with running := some ⟨e, a, some ans⟩ } else none
    | _ => none
  | .accept h expiryHeight =>
    (w.node.accept h expiryHeight w.now).map fun node => { w with node := node }
  | .expire h => (w.node.expire h).map fun node => { w with node := node }
  | .resolve i status =>
    match w.payments[i]? with
    | some p =>
      if p.status = .inFlight ∧ (status = .succeeded →
          ∀ q ∈ w.payments, q.paymentHash = p.paymentHash → q.status ≠ .succeeded) then
        some { w with payments := w.payments.set i { p with status := status } }
      else none
    | none => none
  | .payByHand h =>
    some { w with payments := w.payments ++ [⟨none, h, .inFlight⟩] }
  | .otherTrack p =>
    if p.purpose ∈ lnHoldPurposes then none
    else some (w.transact fun db => (plan env.keys w.now p db).map Prod.snd)

end LnWorld

/-- The ledger of a new installation. -/
def LnDb.empty : LnDb := ⟨.empty, [], ⟨.empty, .empty, defaultLnSettings, none⟩⟩

/-- A daemon that starts on an empty ledger with a node that has none of its invoices. -/
def LnWorld.initial (now : ℤ) : LnWorld :=
  ⟨LnDb.empty, now, now, none, none, fun _ => none, [], [], []⟩

/-- The Lightning track as a transition system. -/
def lnSystem (env : LnEnv) : TransitionSystem LnWorld LnInput where
  init w := ∃ now, w = LnWorld.initial now
  step := LnWorld.step env

/-! ## A trade

The definitions run: a concrete environment and the inputs of a whole trade. -/

/-- An environment that reads one sponsor invoice, over 10000 sats. -/
def sampleEnv : LnEnv where
  keys := ⟨id, Function.injective_id⟩
  decode bolt11 :=
    if bolt11 = "lnbc-sponsor" then some ⟨some "sponsor", some 10000000, some 0, 100000⟩ else none
  toInteger s := [("10000", 10000), ("100000", 100000)].lookup s

/-- A key of one repeated digit. -/
def samplePubkey (c : Char) : Pubkey := String.ofList (List.replicate 64 c)

theorem samplePubkey_a : isHex64 (samplePubkey 'a') = true := by decide

theorem samplePubkey_b : isHex64 (samplePubkey 'b') = true := by decide

/-- An event about the order `ord1`. -/
def sampleEvent (c : Char) (h : isHex64 (samplePubkey c) = true) (tags : List (List String)) :
    LnEvent :=
  ⟨"event", samplePubkey c, h, 0, ["a", "38383:daemon:ord1"] :: tags, .badPayload⟩

/-- The escrow of the order `ord1`. -/
def sampleEscrow : Hash := "lnpay/preimage/v1/ln-escrow/ord1/0"

/-- The order is made, claimed and approved, and its escrow invoice is there. -/
def sampleOpening : List LnInput :=
  [.request .orderRequest
      (sampleEvent 'a' samplePubkey_a [["price", "10000"], ["deadline", "100000"]]) none,
    .request .claim (sampleEvent 'b' samplePubkey_b []) none,
    .clock none (some (10 ^ 8)),
    .start (.holdCreate sampleEscrow), .serve .none "", .resume,
    .serve .none "lnbc-escrow", .resume]

/-- The escrow is paid and taken: the order is `paid`, its payout is pending. -/
def sampleClosing : List LnInput :=
  sampleOpening ++
  [.accept sampleEscrow 1000, .poll sampleEscrow, .observe,
    .request .sponsorInvoice (sampleEvent 'b' samplePubkey_b [["bolt11", "lnbc-sponsor"]]) none,
    .request .remitRequest (sampleEvent 'b' samplePubkey_b []) none,
    .request .paymentConfirm (sampleEvent 'a' samplePubkey_a []) none,
    .start (.own (.close "ord1")), .serve .none "", .resume, .serve .none "", .resume]

/-- The sponsor is paid. -/
def samplePayout : List LnInput :=
  [.start (.own (.payout "ord1")), .answer (.tracked none), .resume, .resolve 0 .succeeded,
    .answer (.paid .succeeded none), .resume]

/-- The run from an empty ledger at time zero. -/
def sampleRun (is : List LnInput) : Option LnWorld :=
  (lnSystem sampleEnv).run (LnWorld.initial 0) is

theorem reachable_of_sampleRun {is : List LnInput} {w : LnWorld} (h : sampleRun is = some w) :
    (lnSystem sampleEnv).Reachable w :=
  TransitionSystem.Reachable.run (.init ⟨0, rfl⟩) h

end LnPay
