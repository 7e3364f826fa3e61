/-
# Hold invoices (`daemon/src/hold`, `daemon/src/effects.ts`, `daemon/src/derive.ts`)

The life of one hold invoice, shared by the Lightning escrow and deposits and
by the on-chain bonds:

  plan ─ creating ─(hold.create)→ open ─(node: paid)→ accepted ─(hold.dispose)→ settled / cancelled

* `Db` is the ledger: the hold table, the pending effects and the tables `T`
  of a track; a transaction is a function into `Except Abort (Db T E)`, and
  one that throws leaves the ledger as it was.
* `LnNode` is the Lightning node's side of the same invoices.
* The two effects are cut at their awaits: a `HoldAwait` holds what the
  executor has captured, and a `Turn` says what it does next.

What belongs to a track enters through its effects `E` and its `HoldHooks`.
The alerts, log lines and re-publications the source adds do not change the
ledger and are left out.
-/
import LnPay.KeyedTable
import LnPay.Transaction

namespace LnPay

abbrev Hash := String
abbrev OrderId := String
abbrev Pubkey := String

/-! ## What throws inside a transaction -/

/-- The errors a transaction is rolled back with. -/
inductive Abort
  | scopeSlash
  | duplicateHold (paymentHash : Hash)
  | duplicateAttempt
  | duplicateOrder (orderId : OrderId)
  | duplicateDraft (orderId : OrderId)
  | duplicateCandidate (paymentHash : Hash)
  | unknownOrder (orderId : OrderId)
  | illegalClose
  | illegalTransition (orderId : OrderId)
  | badSettlement
  deriving DecidableEq, Repr

/-- The text of the error. -/
def Abort.message : Abort → String
  | .scopeSlash => "scope 구성요소에 / 가 들어갈 수 없다"
  | .duplicateHold _ => "UNIQUE constraint failed: ln_invoices.payment_hash"
  | .duplicateAttempt =>
      "UNIQUE constraint failed: ln_invoices.purpose, ln_invoices.order_id, " ++
        "ln_invoices.party, ln_invoices.attempt"
  | .duplicateOrder _ => "UNIQUE constraint failed: order_id"
  | .duplicateDraft _ => "UNIQUE constraint failed: ln_drafts.order_id"
  | .duplicateCandidate _ => "UNIQUE constraint failed: oc_candidates.payment_hash"
  | .unknownOrder orderId => "모르는 오더: " ++ orderId
  | .illegalClose => "닫을 수 없는 전이"
  | .illegalTransition orderId => "허용되지 않은 전이: " ++ orderId
  | .badSettlement => "정산 트랜잭션을 만들 수 없다"

/-! ## Rows -/

/-- What an invoice is for (`PreimagePurpose`). -/
inductive HoldPurpose
  | lnEscrow | lnCustomerDeposit | lnSponsorDeposit | ocCustomerBond | ocSponsorBond
  deriving DecidableEq, Repr

/-- The text of a purpose, as it enters the preimage label. -/
def HoldPurpose.text : HoldPurpose → String
  | .lnEscrow => "ln-escrow"
  | .lnCustomerDeposit => "ln-customer-deposit"
  | .lnSponsorDeposit => "ln-sponsor-deposit"
  | .ocCustomerBond => "oc-customer-bond"
  | .ocSponsorBond => "oc-sponsor-bond"

/-- The recorded status of an invoice. -/
inductive HoldStatus
  | creating | opened | accepted | settled | cancelled
  deriving DecidableEq, Repr

/-- How an invoice ends. -/
inductive HoldFinal
  | settled | cancelled
  deriving DecidableEq, Repr

/-- The status that records an end. -/
def HoldFinal.status : HoldFinal → HoldStatus
  | .settled => .settled
  | .cancelled => .cancelled

/-- What a disposal asks for: take the money or give it back. -/
inductive DisposeAction
  | settle | cancel
  deriving DecidableEq, Repr

/-- Who disposed of an invoice: `dispose()` or a track's batch effect. -/
inductive DisposedVia
  | settle | cancel | batch
  deriving DecidableEq, Repr

/-- The `via` of a disposal by the dispose effect. -/
def DisposeAction.via : DisposeAction → DisposedVia
  | .settle => .settle
  | .cancel => .cancel

/-- A row of `ln_invoices`. -/
structure HoldRow where
  paymentHash : Hash
  purpose : HoldPurpose
  orderId : OrderId
  /-- who pays -/
  party : Pubkey
  attempt : ℕ
  amountSat : ℕ
  /-- empty until the node has made it -/
  bolt11 : String
  payBy : ℤ
  cltvBlocks : ℕ
  status : HoldStatus
  htlcExpiryHeight : Option ℕ
  createdAt : ℤ
  updatedAt : ℤ
  deriving DecidableEq, Repr

/-- An invoice that is not finished (`LIVE_HOLD_STATUSES`). -/
def isLiveHold (inv : HoldRow) : Bool :=
  inv.status = .creating || inv.status = .opened || inv.status = .accepted

/-! ## Derivation of the payment hash -/

/-- `sha256 ∘ hmac(seed)` on labels, injective on distinct labels. -/
structure KeyDerivation where
  paymentHashOf : String → Hash
  injective : Function.Injective paymentHashOf

/-- The purposes whose scope names the person. -/
def HoldPurpose.perParty : HoldPurpose → Bool
  | .lnSponsorDeposit => true
  | .ocSponsorBond => true
  | _ => false

/-- `preimageScope`: the order id and, when given and not empty, the party. -/
def preimageScope (purpose : HoldPurpose) (orderId : OrderId) (party : Option Pubkey) :
    Except Abort String :=
  if '/' ∈ orderId.toList ∨ ∃ p ∈ party, '/' ∈ p.toList then .error .scopeSlash
  else .ok <| match party with
    | some p => if p = "" then purpose.text ++ "/" ++ orderId
                else purpose.text ++ "/" ++ orderId ++ "/" ++ p
    | none => purpose.text ++ "/" ++ orderId

/-- `scopeOf`: only a sponsor's invoice names the person. -/
def scopeOf (purpose : HoldPurpose) (orderId : OrderId) (party : Pubkey) : Except Abort String :=
  preimageScope purpose orderId (if purpose.perParty then some party else none)

/-- The label a preimage is derived from. -/
def preimageLabel (scope : String) (attempt : ℕ) : String :=
  "lnpay/preimage/v1/" ++ scope ++ "/" ++ toString attempt

/-! ## Effects and the ledger -/

/-- The effects of a track besides the two of the hold invoices; their dedup keys keep clear of
the keys used here. -/
class OwnEffect (E : Type) where
  dedup : E → Option String
  dedup_ne_hold : ∀ e h, dedup e ≠ some ("hold:" ++ h)
  dedup_ne_dispose : ∀ e h, dedup e ≠ some ("hold.dispose:" ++ h)

/-- A pending effect. -/
inductive Effect (E : Type)
  | holdCreate (paymentHash : Hash)
  | holdDispose (paymentHash : Hash) (action : DisposeAction)
  | own (e : E)
  deriving DecidableEq

/-- The dedup key of an effect. -/
def Effect.dedup {E : Type} [OwnEffect E] : Effect E → Option String
  | .holdCreate h => some ("hold:" ++ h)
  | .holdDispose h _ => some ("hold.dispose:" ++ h)
  | .own e => OwnEffect.dedup e

/-- The ledger: hold invoices, pending effects, and a track's tables. -/
structure Db (T E : Type) where
  holds : KeyedTable HoldRow.paymentHash
  effects : List (Effect E)
  track : T

namespace Db

variable {T E : Type}

/-- Whether a pending effect carries the dedup key of `e`. -/
def hasPending [OwnEffect E] (e : Effect E) (db : Db T E) : Bool :=
  e.dedup.isSome && db.effects.any fun e' => e'.dedup = e.dedup

/-- Stacks an intent unless a pending one has its dedup key. -/
def enqueue [OwnEffect E] (e : Effect E) (db : Db T E) : Db T E :=
  if db.hasPending e then db else { db with effects := db.effects ++ [e] }

/-- Takes a finished effect off the queue. -/
def finish [DecidableEq E] (e : Effect E) (db : Db T E) : Db T E :=
  { db with effects := db.effects.erase e }

end Db

/-! ## Reading and writing hold rows -/

section Holds

variable {T E : Type}

/-- `ORDER BY created_at, attempt`. -/
def HoldRow.before (a b : HoldRow) : Prop :=
  a.createdAt < b.createdAt ∨ (a.createdAt = b.createdAt ∧ a.attempt ≤ b.attempt)

instance : DecidableRel HoldRow.before := fun _ _ => inferInstanceAs (Decidable (_ ∨ _))

/-- The invoices of an order for some purposes. -/
def holdsOf (orderId : OrderId) (purposes : List HoldPurpose) (db : Db T E) : List HoldRow :=
  ((db.holds.rows.filter fun r => r.orderId = orderId).insertionSort HoldRow.before).filter
    fun r => r.purpose ∈ purposes

/-- The last attempt of this person's invoice that is not cancelled. -/
def currentHold (purpose : HoldPurpose) (orderId : OrderId) (party : Pubkey) (db : Db T E) :
    Option HoldRow :=
  ((db.holds.rows.filter fun r => r.purpose = purpose ∧ r.orderId = orderId ∧ r.party = party ∧
    r.status ≠ .cancelled).insertionSort fun a b => b.attempt ≤ a.attempt).head?

/-- Whether we issued this hash; our own invoices are not accepted as destinations. -/
def isOurs (paymentHash : Hash) (db : Db T E) : Bool := (db.holds.find paymentHash).isSome

/-- A plan for an invoice. -/
structure HoldPlan where
  purpose : HoldPurpose
  orderId : OrderId
  party : Pubkey
  amountSat : ℕ
  payBy : ℤ
  cltvBlocks : ℕ

/-- `MAX(attempt) + 1` over this purpose, order and person, from zero. -/
def nextAttempt (purpose : HoldPurpose) (orderId : OrderId) (party : Pubkey) (db : Db T E) : ℕ :=
  match ((db.holds.rows.filter fun r =>
      r.purpose = purpose ∧ r.orderId = orderId ∧ r.party = party).map HoldRow.attempt).max? with
  | none => 0
  | some n => n + 1

/-- The row a plan writes. -/
def HoldPlan.row (p : HoldPlan) (hash : Hash) (attempt : ℕ) (now : ℤ) : HoldRow where
  paymentHash := hash
  purpose := p.purpose
  orderId := p.orderId
  party := p.party
  attempt := attempt
  amountSat := p.amountSat
  bolt11 := ""
  payBy := p.payBy
  cltvBlocks := p.cltvBlocks
  status := .creating
  htlcExpiryHeight := none
  createdAt := now
  updatedAt := now

/-- `INSERT INTO ln_invoices`: the primary key and the unique attempt are both checked. -/
def insertHold (r : HoldRow) (db : Db T E) : Except Abort (Db T E) :=
  if ∃ s ∈ db.holds.rows, s.purpose = r.purpose ∧ s.orderId = r.orderId ∧ s.party = r.party ∧
      s.attempt = r.attempt then .error .duplicateAttempt
  else match db.holds.insert r with
    | none => .error (.duplicateHold r.paymentHash)
    | some holds => .ok { db with holds := holds }

/-- Plans an invoice: the hash is known from the seed, so the row comes first and the node call is
left to the effect. -/
def plan [OwnEffect E] (keys : KeyDerivation) (now : ℤ) (p : HoldPlan) (db : Db T E) :
    Except Abort (HoldRow × Db T E) := do
  let attempt := nextAttempt p.purpose p.orderId p.party db
  let scope ← scopeOf p.purpose p.orderId p.party
  let row := p.row (keys.paymentHashOf (preimageLabel scope attempt)) attempt now
  let db ← insertHold row db
  return (row, db.enqueue (.holdCreate row.paymentHash))

/-- Asks for a disposal: settle takes the money, cancel gives it back. -/
def dispose [OwnEffect E] (paymentHash : Hash) (action : DisposeAction) (db : Db T E) : Db T E :=
  db.enqueue (.holdDispose paymentHash action)

/-- What `set` may change of a row. -/
structure HoldPatch where
  status : Option HoldStatus := none
  bolt11 : Option String := none
  htlcExpiryHeight : Option ℕ := none

/-- A row with a patch applied. -/
def HoldRow.patched (r : HoldRow) (patch : HoldPatch) (now : ℤ) : HoldRow :=
  { r with
    status := patch.status.getD r.status
    bolt11 := patch.bolt11.getD r.bolt11
    htlcExpiryHeight := patch.htlcExpiryHeight.or r.htlcExpiryHeight
    updatedAt := now }

/-- Records a status (of an observation or of an effect's result). -/
def setHold (now : ℤ) (paymentHash : Hash) (patch : HoldPatch) (db : Db T E) : Db T E :=
  { db with holds := db.holds.update paymentHash (·.patched patch now) fun _ => rfl }

/-- What a track does when one of its invoices changes.  All run inside the transaction; a row
passed to `nodeCancelled` and `disposed` is the row before the change. -/
structure HoldHooks (T E : Type) where
  created : HoldRow → Db T E → Except Abort (Db T E)
  createFailed : HoldRow → Db T E → Except Abort (Db T E)
  accepted : HoldRow → Db T E → Except Abort (Db T E)
  nodeCancelled : HoldRow → Db T E → Except Abort (Db T E)
  disposed : HoldRow → HoldFinal → DisposedVia → Db T E → Except Abort (Db T E)
  /-- a batch effect of the track is disposing of this invoice: leave the result to it -/
  busy : HoldRow → Db T E → Bool

/-- Records what a disposal came to; nothing when the row already says so. -/
def recordDisposal (hooks : HoldHooks T E) (now : ℤ) (paymentHash : Hash) (final : HoldFinal)
    (via : DisposedVia) (db : Db T E) : Except Abort (Db T E) :=
  match db.holds.find paymentHash with
  | none => .ok db
  | some before =>
    if before.status = final.status then .ok db
    else hooks.disposed before final via (setHold now paymentHash { status := final.status } db)

end Holds

/-! ## The node's side -/

/-- The state of an invoice on the node. -/
inductive HoldState
  | opened | accepted | settled | cancelled
  deriving DecidableEq, Repr

/-- The source's words for the states. -/
def HoldState.text : HoldState → String
  | .opened => "open"
  | .accepted => "accepted"
  | .settled => "settled"
  | .cancelled => "cancelled"

/-- The answer to `lookupInvoice` for an invoice the node knows. -/
structure HoldLookup where
  state : HoldState
  bolt11 : String
  htlcExpiryHeight : Option ℕ
  deriving DecidableEq, Repr

/-- An invoice on the node; `acceptedAt` is when its HTLC was accepted. -/
structure NodeInvoice extends HoldLookup where
  acceptedAt : Option ℤ
  deriving DecidableEq, Repr

/-- The invoices the node has, by payment hash. -/
abbrev LnNode := Hash → Option NodeInvoice

namespace LnNode

/-- Sets the invoice under a hash. -/
def set (node : LnNode) (h : Hash) (inv : NodeInvoice) : LnNode :=
  fun h' => if h' = h then some inv else node h'

@[simp] theorem set_self (node : LnNode) (h : Hash) (inv : NodeInvoice) :
    node.set h inv h = some inv := if_pos rfl

theorem set_of_ne (node : LnNode) {h h' : Hash} (inv : NodeInvoice) (hne : h' ≠ h) :
    node.set h inv h' = node h' := if_neg hne

/-- `lookupInvoice`. -/
def lookupInvoice (node : LnNode) (h : Hash) : Option HoldLookup :=
  (node h).map NodeInvoice.toHoldLookup

/-- `addHoldInvoice`; a hash can be used once. -/
def addHoldInvoice (node : LnNode) (h : Hash) (bolt11 : String) : Option LnNode :=
  match node h with
  | none => some (node.set h ⟨⟨.opened, bolt11, none⟩, none⟩)
  | some _ => none

/-- `settleInvoice`: takes the money of an accepted invoice. -/
def settleInvoice (node : LnNode) (h : Hash) : Option LnNode :=
  match node h with
  | some inv =>
    match inv.state with
    | .accepted | .settled => some (node.set h { inv with state := .settled })
    | _ => none
  | none => none

/-- `cancelInvoice`: an invoice that is settled cannot be cancelled.  Only HTLCs that are held or
taken are asked for their height. -/
def cancelInvoice (node : LnNode) (h : Hash) : Option LnNode :=
  match node h with
  | some inv =>
    match inv.state with
    | .settled => none
    | _ => some (node.set h { inv with state := .cancelled, htlcExpiryHeight := none })
  | none => none

/-- The payer's HTLC arrives and is held. -/
def accept (node : LnNode) (h : Hash) (expiryHeight : ℕ) (now : ℤ) : Option LnNode :=
  match node h with
  | some inv =>
    if inv.state = .opened then
      some (node.set h { inv with
        state := .accepted, htlcExpiryHeight := some expiryHeight, acceptedAt := some now })
    else none
  | none => none

/-- The node gives an invoice up by itself: not paid in time, or the HTLC is about to expire. -/
def expire (node : LnNode) (h : Hash) : Option LnNode :=
  match node h with
  | some inv =>
    if inv.state = .opened ∨ inv.state = .accepted then
      some (node.set h { inv with state := .cancelled, htlcExpiryHeight := none })
    else none
  | none => none

end LnNode

/-! ## The two effects, cut at their awaits -/

/-- A node call of the hold effects. -/
inductive NodeCall
  | lookupInvoice (paymentHash : Hash)
  | addHoldInvoice (paymentHash : Hash)
  | settleInvoice (paymentHash : Hash)
  | cancelInvoice (paymentHash : Hash)
  deriving DecidableEq, Repr

/-- What an awaited node call came back with. -/
inductive NodeAnswer
  | lookup (found : Option HoldLookup)
  | added (bolt11 : String)
  | done
  | failed
  deriving DecidableEq, Repr

/-- What can go wrong with a call: the request is lost, or only its answer is. -/
inductive Fault
  | none | lostRequest | lostAnswer
  deriving DecidableEq, Repr

/-- The node carries out a call; `bolt11` is the invoice text it would make, never empty. -/
def LnNode.perform (node : LnNode) (bolt11 : String) : NodeCall → Option (LnNode × NodeAnswer)
  | .lookupInvoice h => some (node, .lookup (node.lookupInvoice h))
  | .addHoldInvoice h =>
    if bolt11 = "" then none else (node.addHoldInvoice h bolt11).map (·, .added bolt11)
  | .settleInvoice h => (node.settleInvoice h).map (·, .done)
  | .cancelInvoice h => (node.cancelInvoice h).map (·, .done)

/-- The node and the daemon's answer after a call, under a fault; a call the node rejects fails. -/
def LnNode.serve (node : LnNode) (fault : Fault) (bolt11 : String) (call : NodeCall) :
    LnNode × NodeAnswer :=
  match fault, node.perform bolt11 call with
  | .none, some r => r
  | .lostAnswer, some (node', _) => (node', .failed)
  | _, _ => (node, .failed)

/-- What an executor does next: await a call, or end its run. -/
inductive Turn (A R : Type)
  | await (a : A)
  | done (result : R)
  | retry (error : String)
  | dead (error : String)

/-- The awaits of the two hold effects, with what the executor has captured there. -/
inductive HoldAwait
  | createLookup (inv : HoldRow)
  | createCancel (inv : HoldRow)
  | createAdd (inv : HoldRow)
  | disposeLookup (inv : HoldRow) (action : DisposeAction)
  | disposeCall (inv : HoldRow) (final : HoldFinal)
  deriving DecidableEq, Repr

/-- The node call that ends an invoice in a given way. -/
def HoldFinal.call (final : HoldFinal) (paymentHash : Hash) : NodeCall :=
  match final with
  | .settled => .settleInvoice paymentHash
  | .cancelled => .cancelInvoice paymentHash

/-- The call an await waits for. -/
def HoldAwait.call : HoldAwait → NodeCall
  | .createLookup inv => .lookupInvoice inv.paymentHash
  | .createCancel inv => .cancelInvoice inv.paymentHash
  | .createAdd inv => .addHoldInvoice inv.paymentHash
  | .disposeLookup inv _ => .lookupInvoice inv.paymentHash
  | .disposeCall inv final => final.call inv.paymentHash

/-- What the run of a hold effect returns. -/
inductive HoldResult
  | created (bolt11 : Option String)
  | tooLate
  | disposed (final : HoldFinal)
  deriving DecidableEq, Repr

/-- What `settleOrCancel` does after the lookup: it has the result, or one call to make. -/
inductive Settling
  | final (f : HoldFinal)
  | call (f : HoldFinal)
  deriving DecidableEq, Repr

/-- `settleOrCancel`: an invoice that is already finished gives its end, an accepted one is settled
when that is wanted, everything else is cancelled. -/
def settleOrCancel (want : DisposeAction) : Option HoldLookup → Settling
  | none => .final .cancelled
  | some l =>
    match l.state with
    | .settled => .final .settled
    | .cancelled => .final .cancelled
    | .accepted => if want = .settle then .call .settled else .call .cancelled
    | .opened => .call .cancelled

/-- `preimageOf` finds the preimage of a row: the label derives the recorded hash. -/
def preimageMatches (keys : KeyDerivation) (inv : HoldRow) : Bool :=
  match scopeOf inv.purpose inv.orderId inv.party with
  | .ok scope => keys.paymentHashOf (preimageLabel scope inv.attempt) = inv.paymentHash
  | .error _ => false

section Executors

variable {T E : Type}

/-- `hold.create` up to its first await. -/
def createStart (paymentHash : Hash) (db : Db T E) : Turn HoldAwait HoldResult :=
  match db.holds.find paymentHash with
  | none => .dead "모르는 인보이스"
  | some inv => .await (.createLookup inv)

/-- `hold.dispose` up to its first await. -/
def disposeStart (paymentHash : Hash) (action : DisposeAction) (db : Db T E) :
    Turn HoldAwait HoldResult :=
  match db.holds.find paymentHash with
  | none => .dead "모르는 인보이스"
  | some inv => .await (.disposeLookup inv action)

/-- `hold.create` after the lookup: clean up what was cancelled meanwhile, take what an earlier run
made, or make the invoice if there is still a minute to pay it. -/
def createLooked (now : ℤ) (inv : HoldRow) (existing : Option HoldLookup) :
    Turn HoldAwait HoldResult :=
  if inv.status ≠ .creating then
    match existing with
    | some l => if l.state = .opened ∨ l.state = .accepted then .await (.createCancel inv)
                else .done (.created none)
    | none => .done (.created none)
  else match existing with
    | some l => .done (.created (some l.bolt11))
    | none => if inv.payBy - now < 60 then .done .tooLate else .await (.createAdd inv)

/-- `settleOrCancel` as the executor awaits it; a preimage that does not match throws. -/
def settleTurn (keys : KeyDerivation) (inv : HoldRow) : Settling → Turn HoldAwait HoldResult
  | .final f => .done (.disposed f)
  | .call f =>
    if f = .settled ∧ ¬ preimageMatches keys inv then .retry "프리이미지가 해시와 맞지 않는다"
    else .await (.disposeCall inv f)

/-- An executor of the hold effects goes on with an answer; a call that fails throws. -/
def HoldAwait.resume (keys : KeyDerivation) (now : ℤ) :
    HoldAwait → NodeAnswer → Turn HoldAwait HoldResult
  | .createLookup inv, .lookup found => createLooked now inv found
  | .createCancel _, .done => .done (.created none)
  | .createAdd _, .added bolt11 => .done (.created (some bolt11))
  | .disposeLookup inv action, .lookup found => settleTurn keys inv (settleOrCancel action found)
  | .disposeCall _ final, .done => .done (.disposed final)
  | _, _ => .retry "LND"

/-- `onDone` of `hold.create`. -/
def createDone (hooks : HoldHooks T E) (now : ℤ) (paymentHash : Hash) (result : HoldResult)
    (db : Db T E) : Except Abort (Db T E) :=
  match db.holds.find paymentHash with
  | none => .ok db
  | some inv =>
    if inv.status ≠ .creating then .ok db
    else match result with
      | .created (some bolt11) =>
        if bolt11 = "" then
          hooks.createFailed (inv.patched { status := some .cancelled } now)
            (setHold now paymentHash { status := some .cancelled } db)
        else
          hooks.created (inv.patched { status := some .opened, bolt11 := some bolt11 } now)
            (setHold now paymentHash { status := some .opened, bolt11 := some bolt11 } db)
      | _ =>
        hooks.createFailed (inv.patched { status := some .cancelled } now)
          (setHold now paymentHash { status := some .cancelled } db)

/-- `onDone` of `hold.dispose`. -/
def disposeDone (hooks : HoldHooks T E) (now : ℤ) (paymentHash : Hash) (action : DisposeAction)
    (result : HoldResult) (db : Db T E) : Except Abort (Db T E) :=
  match result with
  | .disposed final => recordDisposal hooks now paymentHash final action.via db
  | _ => .ok db

/-- Whether the dispose effect of an invoice is pending. -/
def disposing [OwnEffect E] (inv : HoldRow) (db : Db T E) : Bool :=
  db.effects.any fun e => e.dedup = some ("hold.dispose:" ++ inv.paymentHash)

/-- Whether `poll` asks the node about this invoice. -/
def polls (paymentHash : Hash) (db : Db T E) : Bool :=
  match db.holds.find paymentHash with
  | none => false
  | some inv => inv.status = .opened || inv.status = .accepted

/-- `observe` notes the height at which the accepted HTLC ends; zero is no height. -/
def noteHeight (now : ℤ) (inv : HoldRow) (l : HoldLookup) (db : Db T E) : Db T E :=
  match l.htlcExpiryHeight with
  | some height =>
    if height ≠ 0 ∧ inv.htlcExpiryHeight ≠ some height then
      setHold now inv.paymentHash { htlcExpiryHeight := some height } db
    else db
  | none => db

/-- `observe` notes the state and calls the hook that belongs to it. -/
def noteState (hooks : HoldHooks T E) (now : ℤ) (inv : HoldRow) (l : HoldLookup) (db : Db T E) :
    Except Abort (Db T E) :=
  if l.state = .accepted ∧ inv.status = .opened then
    let db := setHold now inv.paymentHash { status := some .accepted } db
    match db.holds.find inv.paymentHash with
    | none => .ok db
    | some inv => hooks.accepted inv db
  else if l.state = .settled then .ok (setHold now inv.paymentHash { status := some .settled } db)
  else if l.state = .cancelled then
    hooks.nodeCancelled inv (setHold now inv.paymentHash { status := some .cancelled } db)
  else .ok db

/-- `observe`: what a lookup says about a live invoice, and what follows from it; an invoice that
is being disposed of is left to that effect. -/
def observe [OwnEffect E] (hooks : HoldHooks T E) (now : ℤ) (paymentHash : Hash)
    (lookup : Option HoldLookup) (db : Db T E) : Except Abort (Db T E) :=
  match db.holds.find paymentHash with
  | none => .ok db
  | some inv =>
    if inv.status ≠ .opened ∧ inv.status ≠ .accepted then .ok db
    else if disposing inv db ∨ hooks.busy inv db then .ok db
    else match lookup with
      | none => .ok db
      | some l => noteState hooks now inv l (noteHeight now inv l db)

end Executors

end LnPay
