/-
# The on-chain track's store (`daemon/src/onchain/store.ts`, `escrow.ts`, `fees.ts`, `deposit.ts`)

An order row is the order as it is published, the private part (`meta` in the source) and a
version.  `updateOc` is the only way the order itself changes: it checks the
transition against the table and raises the version; `updateOcMeta` writes the
private part alone and leaves the version.

Publications, operator details and notices are left out; the signature requests
and broadcasts are effects here.
-/
import LnPay.OcOrder
import LnPay.HoldInvoice

namespace LnPay

/-! ## Rows -/

/-- `OcUtxo`. -/
structure OcUtxo where
  txid : String
  vout : ℕ
  valueSat : ℚ
  deriving DecidableEq

/-- The outpoint of an output. -/
def OcUtxo.outpoint (u : OcUtxo) : Outpoint := ⟨u.txid, u.vout⟩

/-- `OcRescue`. -/
structure OcRescue where
  utxo : OcUtxo
  feeSat : ℚ
  destination : String
  createdAt : ℤ
  rawHex : Option String
  broadcastTxid : Option String
  deriving DecidableEq

/-- The settlement transaction that is sent out. -/
structure Outbox where
  txid : String
  rawHex : String
  kind : SettlementKind
  deriving DecidableEq

/-- `OcMeta`. -/
structure OcMeta where
  payoutAddress : Option String := none
  feerateSatPerVb : Option ℚ := none
  presigPsbt : Option String := none
  refundAddress : Option String := none
  accountCommitment : Option String := none
  customerBondExpiresAt : Option ℤ := none
  sponsorBondExpiresAt : Option ℤ := none
  outbox : Option Outbox := none
  lastSignRequestAt : Option ℤ := none
  strays : List OcUtxo := []
  /-- by `txid:vout` -/
  rescues : List (String × OcRescue) := []
  deriving DecidableEq

/-- `OcRow`. -/
structure OcRow where
  order : OnchainOrder
  ocMeta : OcMeta
  version : ℕ
  deriving DecidableEq

/-- The key of a row. -/
def OcRow.orderId (r : OcRow) : OrderId := r.order.orderId

/-- `CustomerListInfo`. -/
structure CustomerListInfo where
  amountSat : ℚ
  reserveKrw : Option ℚ
  expiration : ℚ
  customerXonly : String
  refundAddress : String
  deriving DecidableEq

/-- `SponsorClaimInfo`. -/
structure SponsorClaimInfo where
  sponsorXonly : String
  payoutAddress : String
  feerateSatPerVb : ℚ
  deriving DecidableEq

/-- What a candidate has asked for. -/
inductive CandidateInfo
  | customer (info : CustomerListInfo) (cltvBlocks : ℕ)
  | sponsor (info : SponsorClaimInfo) (cltvBlocks : ℕ)
  deriving DecidableEq

/-- `OcCandidate`: a deposit that has not been paid yet. -/
structure OcCandidate where
  paymentHash : Hash
  orderId : OrderId
  party : Pubkey
  info : CandidateInfo
  createdAt : ℤ
  deriving DecidableEq

/-- Whether the deposit is of a claim. -/
def OcCandidate.isSponsor (c : OcCandidate) : Bool :=
  match c.info with
  | .sponsor _ _ => true
  | .customer _ _ => false

/-- `FeeEstimates`, as far as it is used. -/
structure FeeEstimates where
  fastest : ℚ
  halfHour : ℚ
  deriving DecidableEq

/-- The tables of the on-chain track. -/
structure OcTables where
  orders : KeyedTable OcRow.orderId
  candidates : KeyedTable OcCandidate.paymentHash
  /-- the last estimates, with the time they were saved -/
  fees : Option (ℤ × FeeEstimates)
  acceptNewOrders : Bool

/-- The effects of the on-chain track that move money or ask for a signature. -/
inductive OcEffect
  | broadcast (orderId : OrderId) (txid : String) (rescueKey : Option String)
  | signRequest (orderId : OrderId) (recipient : Pubkey) (purpose : SignPurpose) (psbt : String)
      (at_ : ℤ)
  deriving DecidableEq

/-- The source's words for the purposes. -/
def SignPurpose.text : SignPurpose → String
  | .release => "release"
  | .refund => "refund"
  | .disputeCustomer => "dispute-customer"
  | .disputeSponsor => "dispute-sponsor"
  | .rescue => "rescue"

/-- The dedup keys of the track's effects. -/
def OcEffect.key : OcEffect → String
  | .broadcast _ txid _ => "oc.broadcast:" ++ txid
  | .signRequest orderId _ purpose _ t =>
    "oc.msg:sign:" ++ orderId ++ ":" ++ purpose.text ++ ":" ++ toString t

instance : OwnEffect OcEffect where
  dedup e := some e.key
  dedup_ne_hold e h := by
    cases e <;> simp [OcEffect.key, ← String.toList_inj]
  dedup_ne_dispose e h := by
    cases e <;> simp [OcEffect.key, ← String.toList_inj]

/-- The ledger as the on-chain track sees it. -/
abbrev OcDb := Db OcTables OcEffect

/-! ## Orders -/

/-- `getOc`. -/
def getOc (orderId : OrderId) (db : OcDb) : Option OcRow := db.track.orders.find orderId

/-- `allOc`. -/
def allOc (db : OcDb) : List OcRow := db.track.orders.rows

/-- The ledger with another table of orders. -/
def setOrders (orders : KeyedTable OcRow.orderId) (db : OcDb) : OcDb :=
  { db with track := { db.track with orders := orders } }

/-- `insertOc`. -/
def insertOc (order : OnchainOrder) (ocMeta : OcMeta) (db : OcDb) : Except Abort OcDb :=
  match db.track.orders.insert ⟨order, ocMeta, 1⟩ with
  | none => .error (.duplicateOrder order.orderId)
  | some orders => .ok (setOrders orders db)

/-- `openDesignatedCount`. -/
def openOcDesignatedCount (customer : Pubkey) (db : OcDb) : ℕ :=
  ((allOc db).filter fun r => r.order.state = .listed ∧ r.order.customerPubkey = customer ∧
    r.order.designatedSponsor.isSome).length

/-- The order a patch leaves: what the store does not let it change is put back, and time goes on
even within a second. -/
def OnchainOrder.restamp (o patched : OnchainOrder) (now : ℤ) : OnchainOrder :=
  { patched with
    orderId := o.orderId, createdAt := o.createdAt, designatedSponsor := o.designatedSponsor
    updatedAt := max now (o.updatedAt + 1) }

/-- A row with both patches applied. -/
def OcRow.stamp (patch : OnchainOrder → OnchainOrder) (metaPatch : OcMeta → OcMeta) (now : ℤ)
    (r : OcRow) : OcRow :=
  ⟨r.order.restamp (patch r.order) now, metaPatch r.ocMeta, r.version + 1⟩

/-- The ledger with the row of an order changed. -/
def setOc (now : ℤ) (orderId : OrderId) (patch : OnchainOrder → OnchainOrder)
    (metaPatch : OcMeta → OcMeta) (db : OcDb) : OcDb :=
  setOrders (db.track.orders.update orderId (OcRow.stamp patch metaPatch now) fun _ => rfl) db

/-- `updateOc`: the only way an order changes.  A transition outside the table throws. -/
def updateOc (now : ℤ) (orderId : OrderId) (patch : OnchainOrder → OnchainOrder)
    (metaPatch : OcMeta → OcMeta) (db : OcDb) : Except Abort (OnchainOrder × OcDb) :=
  match getOc orderId db with
  | none => .error (.unknownOrder orderId)
  | some row =>
    if (patch row.order).state ≠ row.order.state ∧
        ¬ canOnchainTransition row.order.state (patch row.order).state then
      .error (.illegalTransition orderId)
    else .ok (row.order.restamp (patch row.order) now, setOc now orderId patch metaPatch db)

/-- `updateOcMeta`: the private part only, and the version stays. -/
def updateOcMeta (orderId : OrderId) (metaPatch : OcMeta → OcMeta) (db : OcDb) : OcDb :=
  setOrders (db.track.orders.update orderId (fun r => { r with ocMeta := metaPatch r.ocMeta })
    fun _ => rfl) db

/-! ## Candidates -/

/-- `putCandidate`. -/
def putCandidate (c : OcCandidate) (db : OcDb) : Except Abort OcDb :=
  match db.track.candidates.insert c with
  | none => .error (.duplicateCandidate c.paymentHash)
  | some candidates => .ok { db with track := { db.track with candidates := candidates } }

/-- `getCandidate`. -/
def getCandidate (paymentHash : Hash) (db : OcDb) : Option OcCandidate :=
  db.track.candidates.find paymentHash

/-- `candidatesOf`. -/
def candidatesOf (orderId : OrderId) (db : OcDb) : List OcCandidate :=
  (db.track.candidates.rows.filter fun c => c.orderId = orderId).insertionSort
    fun a b => a.createdAt ≤ b.createdAt

/-- `deleteCandidate`. -/
def deleteCandidate (paymentHash : Hash) (db : OcDb) : OcDb :=
  { db with track := { db.track with candidates := db.track.candidates.erase paymentHash } }

/-! ## Fees and deposits -/

/-- `currentFees`: none that are older than ten minutes. -/
def currentFees (now : ℤ) (db : OcDb) : Option FeeEstimates :=
  (db.track.fees.filter fun f => now - f.1 ≤ 10 * 60).map (·.2)

/-- `TYPICAL_SETTLEMENT_VSIZE`. -/
def typicalSettlementVsize : ℚ := 169

/-- `SPONSOR_DEPOSIT_PERCENT`. -/
def sponsorDepositPercent : ℚ := 3

/-- `CUSTOMER_DEPOSIT_PERCENT`. -/
def customerDepositPercent : ℚ := 1

/-- `depositFloorSat`: four times the fee of a settlement. -/
def depositFloorSat (settlementFee : ℚ) : ℚ := ⌈settlementFee * 4⌉

/-- `depositSat` of the on-chain track. -/
def ocDepositSat (amountSat percent floorSat : ℚ) : ℚ := max ⌈amountSat * percent / 100⌉ floorSat

/-- `minTradeSat`. -/
def minTradeSat (floorSat : ℚ) : ℚ := ⌈floorSat / (sponsorDepositPercent / 100)⌉

/-- `depositCltvBlocks`: the listing and the longest trade, with six hours to spare. -/
def depositCltvBlocks (expiration : ℚ) (now : ℤ) : ℕ :=
  ⌈(expiration - now + maxTradeDurationSec + 6 * 3600) / 600⌉.toNat

/-- `CLTV_MAX_BLOCKS`. -/
def ocCltvMaxBlocks : ℕ := 1500

/-! ## Escrow material -/

/-- What the track rests on from outside: the bitcoin library, the seed, the network. -/
structure OcEnv (P : Type) where
  lib : BtcSigner P
  keys : KeyDerivation
  network : BtcNetworkName
  /-- the daemon's key of an order, from the seed -/
  adminKeyOf : OrderId → Bytes
  adminXonlyOf : OrderId → String
  /-- `toPsbtBase64` -/
  toPsbtBase64 : BtcTransaction → String
  /-- `tx.finalize()` and `tx.hex` -/
  finalizedHex : BtcTransaction → Except String String
  /-- `Number(s)`, when it is finite -/
  toNumber : String → Option ℚ

section Escrow

variable {P : Type} (env : OcEnv P)

/-- `escrowDescriptorFor`. -/
def escrowDescriptorFor (order : OnchainOrder) : Option EscrowDescriptor :=
  match given order.customerXonly, given order.sponsorXonly, given order.adminXonly with
  | some customer, some sponsor, some admin =>
    (deriveEscrowAddress env.lib ⟨customer, sponsor, admin⟩ order.network
      order.timelockBlocks).toOption
  | _, _, _ => none

/-- `releaseFeeFor`: at the rate and to the address of the claim. -/
def releaseFeeFor (order : OnchainOrder) (ocMeta : OcMeta) : Option ℚ :=
  match given ocMeta.payoutAddress, ocMeta.feerateSatPerVb.filter (· ≠ 0),
      escrowDescriptorFor env order with
  | some payoutAddress, some feerate, some descriptor =>
    (settlementFeeSat env.lib .release descriptor payoutAddress feerate).toOption
  | _, _, _ => none

/-- `refundDestinationFor`: the address of the request, or that of the customer's key. -/
def refundDestinationFor (order : OnchainOrder) (ocMeta : OcMeta) : Option String :=
  match given ocMeta.refundAddress with
  | some address => some address
  | none => (given order.customerXonly).bind fun xonly =>
    (deriveSingleKeyAddress env.lib xonly order.network).toOption

/-- `settlementParamsFor`, for a kind and the fee that has been decided for it. -/
def settlementParamsFor (order : OnchainOrder) (ocMeta : OcMeta) (kind : SettlementKind)
    (feeSat : Option ℚ) : Option BuildSettlementParams :=
  match escrowDescriptorFor env order, parseOutpoint order.fundingOutpoint with
  | some descriptor, some outpoint =>
    let destination := match kind with
      | .release | .sponsorWin => given ocMeta.payoutAddress
      | _ => given (refundDestinationFor env order ocMeta)
    let fee := if kind = .release then order.releaseFeeSat else feeSat
    match destination, fee with
    | some destination, some fee =>
      some ⟨descriptor, outpoint, order.amountSat, settlementPathForKind kind, destination, fee⟩
    | _, _ => none
  | _, _ => none

end Escrow

end LnPay
