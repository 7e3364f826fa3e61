/-
# Bonds and settlements (`daemon/src/onchain/bonds.ts`, `flow.ts`)

What the watcher, the operators and the requests have in common: an order comes
to be and is claimed, a settlement is decided, recorded and sent out, stray money
is given back.  Everything runs inside a transaction and asks nobody.
-/
import LnPay.OcStore

namespace LnPay

/-- `OnchainOutcome`. -/
inductive OnchainOutcome
  | kind (k : SettlementKind)
  | cancelByCustomer
  | cancelExpired
  | cancelNoFunding
  | swept
  deriving DecidableEq, Repr

/-- `BondDisposition`. -/
inductive BondDisposition
  | refund
  | forfeit
  | expired
  | none
  | hold
  deriving DecidableEq, Repr

/-- `OUTCOME_RULES`: what becomes of the sponsor's bond. -/
def OnchainOutcome.sponsorBond : OnchainOutcome → BondDisposition
  | .kind .release | .kind .refundReserve | .kind .refundCustomerLate | .kind .sponsorWin => .refund
  | .kind .refundSponsorTimeout | .kind .customerWin => .forfeit
  | .kind .refundBondExpired => .expired
  | .kind .refundAccountDisputed => .hold
  | .cancelByCustomer | .cancelExpired => .none
  | .cancelNoFunding => .refund
  | .swept => .expired

/-- `OUTCOME_RULES`: what becomes of the customer's bond. -/
def OnchainOutcome.customerBond : OnchainOutcome → BondDisposition
  | .kind .release | .kind .refundReserve | .kind .refundSponsorTimeout | .kind .refundBondExpired
  | .kind .customerWin => .refund
  | .kind .refundCustomerLate | .kind .sponsorWin => .forfeit
  | .kind .refundAccountDisputed => .hold
  | .cancelByCustomer | .cancelExpired => .refund
  | .cancelNoFunding => .forfeit
  | .swept => .expired

/-! ## Bonds -/

/-- `applyBond`: only a bond that is held is touched. -/
def applyBond (paymentHash : Option Hash) (disposition : BondDisposition) (db : OcDb) : OcDb :=
  match given paymentHash with
  | none => db
  | some h =>
    if (db.holds.find h).map HoldRow.status ≠ some .accepted then db
    else match disposition with
    | .forfeit => dispose h .settle db
    | .refund => dispose h .cancel db
    | .none | .expired | .hold => db

/-- `applyOutcome`: the customer's bond, then the sponsor's. -/
def applyOutcome (order : OnchainOrder) (outcome : OnchainOutcome) (db : OcDb) : OcDb :=
  applyBond order.sponsorDepositHash outcome.sponsorBond
    (applyBond order.customerDepositHash outcome.customerBond db)

/-- A deposit given back, with its candidate. -/
def dropCandidate (c : OcCandidate) (db : OcDb) : OcDb :=
  deleteCandidate c.paymentHash (dispose c.paymentHash .cancel db)

/-- `dropSponsorCandidates`. -/
def dropSponsorCandidates (orderId : OrderId) (db : OcDb) : OcDb :=
  ((candidatesOf orderId db).filter OcCandidate.isSponsor).foldl (fun db c => dropCandidate c db) db

/-- A bond that is held. -/
structure Bond where
  paymentHash : Hash
  cltvBlocks : ℕ
  deriving DecidableEq, Repr

/-- `BLOCK_SEC`. -/
def ocBlockSec : ℤ := 600

/-- What a track's transaction is relative to. -/
structure OcCtx (P : Type) where
  env : OcEnv P
  now : ℤ
  price : Option ℚ

namespace OcCtx

variable {P : Type} (ctx : OcCtx P)

/-- `listOc`: the order comes to be. -/
def listOc (orderId : OrderId) (customer : Pubkey) (info : CustomerListInfo) (bond : Option Bond)
    (designatedSponsor : Option Pubkey) (db : OcDb) : Except Abort OcDb := do
  let db ← insertOc {
      orderId := orderId
      state := .listed
      customerPubkey := customer
      amountSat := info.amountSat
      reserveKrw := info.reserveKrw
      createdAt := ctx.now
      updatedAt := ctx.now
      expiration := info.expiration
      network := ctx.env.network
      customerXonly := some info.customerXonly
      customerDepositHash := bond.map Bond.paymentHash
      designatedSponsor := given designatedSponsor }
    { refundAddress := some info.refundAddress
      customerBondExpiresAt := bond.map fun b => ctx.now + b.cltvBlocks * ocBlockSec } db
  return match bond with
    | some b => deleteCandidate b.paymentHash db
    | none => db

/-- `bondOc`: the claim; nothing happens when there is no escrow address to be made. -/
def bondOc (row : OcRow) (sponsor : Pubkey) (info : SponsorClaimInfo) (bond : Option Bond)
    (db : OcDb) : Except Abort (Bool × OcDb) :=
  let orderId := row.order.orderId
  let adminXonly := ctx.env.adminXonlyOf orderId
  match escrowDescriptorFor ctx.env { row.order with
      sponsorXonly := some info.sponsorXonly, adminXonly := some adminXonly } with
  | none => .ok (false, db)
  | some descriptor => do
    let (_, db) ← updateOc ctx.now orderId (fun o => { o with
        state := .bonded
        sponsorPubkey := some sponsor
        sponsorXonly := some info.sponsorXonly
        adminXonly := some adminXonly
        escrowAddress := some descriptor.address
        timelockBlocks := some descriptor.timelockBlocks
        fundingDeadline := some (ctx.now + fundingWindowSec)
        sponsorDepositHash := (bond.map Bond.paymentHash).or o.sponsorDepositHash })
      (fun m => { m with
        payoutAddress := some info.payoutAddress
        feerateSatPerVb := some info.feerateSatPerVb
        sponsorBondExpiresAt := (bond.map fun b => ctx.now + b.cltvBlocks * ocBlockSec).or
          m.sponsorBondExpiresAt }) db
    let db := match bond with
      | some b => deleteCandidate b.paymentHash db
      | none => db
    return (true, dropSponsorCandidates orderId db)

/-- `onCustomerBond`. -/
def onCustomerBond (inv : HoldRow) (info : CustomerListInfo) (cltvBlocks : ℕ) (db : OcDb) :
    Except Abort OcDb :=
  if (getOc inv.orderId db).isSome then .ok (dispose inv.paymentHash .cancel db)
  else ctx.listOc inv.orderId inv.party info (some ⟨inv.paymentHash, cltvBlocks⟩) none db

/-- `onSponsorBond`. -/
def onSponsorBond (inv : HoldRow) (info : SponsorClaimInfo) (cltvBlocks : ℕ) (db : OcDb) :
    Except Abort OcDb :=
  match (getOc inv.orderId db).filter fun row => row.order.state = .listed with
  | none => .ok (dispose inv.paymentHash .cancel db)
  | some row => do
    let (bonded, db) ← ctx.bondOc row inv.party info (some ⟨inv.paymentHash, cltvBlocks⟩) db
    return if bonded then db else dispose inv.paymentHash .cancel db

/-- `createOcBondHooks`. -/
def bondHooks : HoldHooks OcTables OcEffect where
  created inv db :=
    let stillWanted := (getCandidate inv.paymentHash db).any fun cand =>
      if cand.isSponsor then ((getOc inv.orderId db).map (·.order.state)) = some .listed
      else (getOc inv.orderId db).isNone
    if stillWanted then .ok db
    else .ok (deleteCandidate inv.paymentHash (dispose inv.paymentHash .cancel db))
  createFailed inv db := .ok (deleteCandidate inv.paymentHash db)
  accepted inv db :=
    match getCandidate inv.paymentHash db with
    | none =>
      let order := (getOc inv.orderId db).map OcRow.order
      if order.bind (·.customerDepositHash) ≠ some inv.paymentHash ∧
          order.bind (·.sponsorDepositHash) ≠ some inv.paymentHash then
        .ok (dispose inv.paymentHash .cancel db)
      else .ok db
    | some cand =>
      match cand.info with
      | .customer info cltvBlocks => ctx.onCustomerBond inv info cltvBlocks db
      | .sponsor info cltvBlocks => ctx.onSponsorBond inv info cltvBlocks db
  nodeCancelled before db := .ok (deleteCandidate before.paymentHash db)
  disposed before _ _ db := .ok (deleteCandidate before.paymentHash db)
  busy _ _ := false

/-! ## Settlements -/

/-- `requestBroadcast`. -/
def requestBroadcast (orderId : OrderId) (txid : String) (rescueKey : Option String) (db : OcDb) :
    OcDb :=
  db.enqueue (.own (.broadcast orderId txid rescueKey))

/-- `sendOcSignRequest`. -/
def sendOcSignRequest (orderId : OrderId) (recipient : Pubkey) (purpose : SignPurpose)
    (psbt : String) (db : OcDb) : OcDb :=
  db.enqueue (.own (.signRequest orderId recipient purpose psbt ctx.now))

/-- `enterSettling`: the record first, the broadcast after it. -/
def enterSettling (orderId : OrderId) (kind : SettlementKind) (txid rawHex : String) (db : OcDb) :
    Except Abort OcDb := do
  let (settling, db) ← updateOc ctx.now orderId (fun o => { o with
      state := .settling, settlementKind := some kind, settlementTxid := some txid
      settlingAt := some ctx.now })
    (fun m => { m with outbox := some ⟨txid, rawHex, kind⟩ }) db
  let db := if kind = .release then applyOutcome settling (.kind kind) db else db
  return requestBroadcast orderId txid none db

/-- `resendRelease`. -/
def resendRelease (row : OcRow) (db : OcDb) : Option OcDb :=
  (given row.ocMeta.presigPsbt).map fun psbt =>
    ctx.sendOcSignRequest row.order.orderId row.order.customerPubkey .release psbt db

/-- `requestSettlementSignature`: the transaction of the decision, unsigned.  A transaction that
cannot be built any more throws. -/
def requestSettlementSignature (orderId : OrderId) (db : OcDb) : Except Abort (Bool × OcDb) :=
  match (getOc orderId db).bind fun row => row.order.settlementKind.map fun kind => (row, kind) with
  | none => .ok (false, db)
  | some (row, kind) =>
    if kind = .release then .ok (false, db)
    else
      let recipient := if kind = .sponsorWin then row.order.sponsorPubkey
        else some row.order.customerPubkey
      match settlementParamsFor ctx.env row.order row.ocMeta kind row.order.settlementFeeSat,
          given recipient with
      | some params, some recipient =>
        match buildSettlementTx ctx.env.lib params with
        | .error _ => .error .badSettlement
        | .ok tx => .ok (true, updateOcMeta orderId
            (fun m => { m with lastSignRequestAt := some ctx.now })
            (ctx.sendOcSignRequest orderId recipient (signPurposeFor kind) (ctx.env.toPsbtBase64 tx)
              db))
      | _, _ => .ok (false, db)

/-- Whether a settlement of this kind may be decided now.  A release is not decided: the customer
signs it. -/
def mayDecide (kind : SettlementKind) (fold : Bool) (order : OnchainOrder) : Bool :=
  order.settlementKind.isNone &&
    match kind with
    | .sponsorWin | .customerWin => order.state = .disputed
    | .release => false
    | .refundReserve | .refundSponsorTimeout | .refundCustomerLate | .refundBondExpired
    | .refundAccountDisputed =>
      if fold then order.state = .bonded else order.state = .funded || order.state = .presigned

/-- The fee of a settlement that can be built. -/
def settlementFee (shape : BuildSettlementParams) (feerate : ℚ) : Except String ℚ := do
  let feeSat ← LnPay.settlementFeeSat ctx.env.lib shape.path shape.descriptor shape.destination
    feerate
  let _ ← buildSettlementTx ctx.env.lib { shape with feeSat := feeSat }
  return feeSat

/-- Whether a kind is a ruling on a dispute. -/
def isRuling (kind : SettlementKind) : Bool := kind = .sponsorWin || kind = .customerWin

/-- `decideSettlement`: kind and fee are fixed, the bonds are dealt with, a signature is asked for.
Answers the error, if any. -/
def decideSettlement (orderId : OrderId) (kind : SettlementKind) (fold : Option (Outpoint × ℕ))
    (db : OcDb) : Except Abort (Option String × OcDb) :=
  match (getOc orderId db).filter fun row => mayDecide kind fold.isSome row.order with
  | none => .ok (some "bad-state", db)
  | some row =>
    match currentFees ctx.now db with
    | none => .ok (some "no-fees", db)
    | some fees =>
      let draft := match fold with
        | some (outpoint, _) => { row.order with fundingOutpoint := some (formatOutpoint outpoint) }
        | none => row.order
      match settlementParamsFor ctx.env draft row.ocMeta kind (some 0) with
      | none => .ok (some "no-material", db)
      | some shape =>
        -- a sponsor who wins pays at his own rate if it is the higher one
        let feerate := if kind = .sponsorWin then
            max (row.ocMeta.feerateSatPerVb.getD 0) fees.halfHour
          else fees.halfHour
        match ctx.settlementFee shape feerate with
        | .error _ => .ok (some "cannot-build", db)
        | .ok feeSat => do
          let (updated, db) ← updateOc ctx.now orderId (fun o => { o with
              settlementKind := some kind
              settlementFeeSat := some feeSat
              decidedAt := some ctx.now
              state := if isRuling kind then o.state else .refunding
              fundingOutpoint := draft.fundingOutpoint
              fundingConfs := (fold.map (·.2)).or o.fundingConfs }) id db
          let db := applyOutcome updated (.kind kind) db
          let (_, db) ← ctx.requestSettlementSignature orderId db
          return (none, db)

/-- `resolveAccountDispute`: the provisional reason becomes a definite one. -/
def resolveAccountDispute (orderId : OrderId) (accountBad : Bool) (db : OcDb) :
    Except Abort (Option String × OcDb) :=
  match (getOc orderId db).filter fun row => row.order.settlementKind = some .refundAccountDisputed with
  | none => .ok (some "not-disputed", db)
  | some row =>
    if row.order.state ∉ [OnchainState.refunding, .settling, .refunded] then
      .ok (some "bad-state", db)
    else do
      let kind : SettlementKind := if accountBad then .refundCustomerLate else .refundSponsorTimeout
      let (updated, db) ← updateOc ctx.now orderId (fun o => { o with settlementKind := some kind })
        id db
      return (none, applyOutcome updated (.kind kind) db)

/-! ## Rescues -/

/-- `isPinnedOfLiveTrade`. -/
def isPinnedOfLiveTrade (order : OnchainOrder) (outpoint : Outpoint) : Bool :=
  parseOutpoint order.fundingOutpoint = some outpoint && !isOnchainTerminal order.state

/-- `meta.rescues` with an entry put under a key. -/
def setRescue (key : String) (rescue : OcRescue) (m : OcMeta) : OcMeta :=
  { m with rescues := (key, rescue) :: m.rescues.filter fun e => e.1 ≠ key }

/-- `meta.rescues[key]`. -/
def rescueOf (key : String) (m : OcMeta) : Option OcRescue :=
  (m.rescues.find? fun e => e.1 = key).map (·.2)

/-- `requestRescue`: stray money goes back to the customer. -/
def requestRescue (orderId : OrderId) (utxo : OcUtxo) (db : OcDb) : Option String × OcDb :=
  match getOc orderId db with
  | none => (some "unknown-order", db)
  | some row =>
    if isPinnedOfLiveTrade row.order utxo.outpoint then (some "live-escrow", db)
    else match escrowDescriptorFor ctx.env row.order,
        given (refundDestinationFor ctx.env row.order row.ocMeta) with
    | some descriptor, some destination =>
      match currentFees ctx.now db with
      | none => (some "no-fees", db)
      | some fees =>
        let built : Except String (ℚ × BtcTransaction) := do
          let feeSat ← LnPay.settlementFeeSat ctx.env.lib .refund descriptor destination fees.halfHour
          let tx ← buildSettlementTx ctx.env.lib
            ⟨descriptor, utxo.outpoint, utxo.valueSat, .refund, destination, feeSat⟩
          return (feeSat, tx)
        match built with
        | .error _ => (some "cannot-build", db)
        | .ok (feeSat, tx) =>
          let rescue : OcRescue := ⟨utxo, feeSat, destination, ctx.now, none, none⟩
          (none, ctx.sendOcSignRequest orderId row.order.customerPubkey .rescue
            (ctx.env.toPsbtBase64 tx)
            (updateOcMeta orderId (setRescue (formatOutpoint utxo.outpoint) rescue) db))
    | _, _ => (some "no-material", db)

end OcCtx

end LnPay
