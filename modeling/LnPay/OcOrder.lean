/-
# On-chain orders (`shared/src/onchain/order.ts`, `timing.ts`, `policy.ts`)

The order is one record that both sides keep: the daemon writes it, a device
reads it from its tags.  A field that is absent is `none`; a number that has been
read from outside may be any rational.
-/
import LnPay.OcRules
import LnPay.SettlementTx

namespace LnPay

/-- `OnchainOrder`. -/
structure OnchainOrder where
  orderId : OrderId
  state : OnchainState
  customerPubkey : Pubkey
  sponsorPubkey : Option Pubkey := none
  designatedSponsor : Option Pubkey := none
  amountSat : ℚ
  reserveKrw : Option ℚ := none
  createdAt : ℤ
  updatedAt : ℤ
  expiration : ℚ
  network : BtcNetworkName
  -- from `bonded` on
  customerXonly : Option String := none
  sponsorXonly : Option String := none
  adminXonly : Option String := none
  escrowAddress : Option String := none
  timelockBlocks : Option ℚ := none
  fundingDeadline : Option ℤ := none
  -- from `funded` on
  fundingOutpoint : Option String := none
  fundingConfs : Option ℕ := none
  fundedAt : Option ℤ := none
  presignDeadline : Option ℤ := none
  accountDeadline : Option ℤ := none
  cosignDeadline : Option ℤ := none
  priceKrw : Option ℤ := none
  payoutSat : Option ℚ := none
  releaseFeeSat : Option ℚ := none
  -- from `presigned` on
  presignedAt : Option ℤ := none
  accountSentAt : Option ℤ := none
  krwDeadline : Option ℤ := none
  remittedAt : Option ℤ := none
  accountDisputedAt : Option ℤ := none
  disputedAt : Option ℤ := none
  -- the decision
  settlementKind : Option SettlementKind := none
  settlementFeeSat : Option ℚ := none
  decidedAt : Option ℤ := none
  settlementTxid : Option String := none
  settlingAt : Option ℤ := none
  customerDepositHash : Option Hash := none
  sponsorDepositHash : Option Hash := none
  deriving DecidableEq

/-- `parseOutpoint`. -/
def parseOutpoint (value : Option String) : Option Outpoint :=
  match (value.getD "").toList.splitOn ':' with
  | [txid, vout] =>
    if isHex64 (String.ofList txid) ∧ vout ≠ [] ∧ vout.all Char.isDigit then
      let n := vout.foldl (fun n c => 10 * n + (c.toNat - '0'.toNat)) 0
      if n < 2 ^ 53 then some ⟨String.ofList txid, n⟩ else none
    else none
  | _ => none

/-- `formatOutpoint`. -/
def formatOutpoint (o : Outpoint) : String := o.txid ++ ":" ++ toString o.vout

/-- A text that is there and is not empty. -/
def given (s : Option String) : Option String := s.filter (· ≠ "")

/-- A time that is there and is not zero. -/
def nonzero (t : Option ℤ) : Option ℤ := t.filter (· ≠ 0)

/-! ## Deadlines, in seconds -/

/-- `MAX_ORDER_EXPIRY_SEC`. -/
def maxOrderExpirySec : ℚ := 7 * 24 * 3600

/-- `FUNDING_WINDOW_SEC`. -/
def fundingWindowSec : ℤ := 2 * 3600

/-- `PRESIGN_WINDOW_SEC`. -/
def presignWindowSec : ℤ := 15 * 60

/-- `ACCOUNT_WINDOW_SEC`. -/
def accountWindowSec : ℤ := 3600

/-- `KRW_WINDOW_SEC`. -/
def krwWindowSec : ℤ := 30 * 60

/-- `COSIGN_WINDOW_SEC`. -/
def cosignWindowSec : ℤ := 24 * 3600

/-- `COSIGN_GRACE_WARNING_SEC`. -/
def cosignGraceWarningSec : ℤ := 2 * 3600

/-- `SETTLING_WARN_SEC`. -/
def settlingWarnSec : ℤ := 24 * 3600

/-- `DISPUTE_ESCALATION_SEC`. -/
def disputeEscalationSec : ℤ × ℤ := (7 * 24 * 3600, 14 * 24 * 3600)

/-- `DISPUTE_RULING_BUDGET_SEC`. -/
def disputeRulingBudgetSec : ℤ := 24 * 3600

/-- `MAX_TRADE_DURATION_SEC`. -/
def maxTradeDurationSec : ℤ :=
  fundingWindowSec + (presignWindowSec + accountWindowSec + krwWindowSec) + cosignWindowSec +
    disputeRulingBudgetSec

/-- `isPast`: a deadline that is not known has passed. -/
def isPast (deadline : Option ℤ) (now : ℤ) : Bool :=
  match deadline with
  | none => true
  | some d => d ≤ now

namespace OnchainOrder

/-- `presignDeadlineOf`. -/
def presignDeadlineOf (o : OnchainOrder) : Option ℤ :=
  o.presignDeadline.or ((nonzero o.fundedAt).map (· + presignWindowSec))

/-- `accountDeadlineOf`. -/
def accountDeadlineOf (o : OnchainOrder) : Option ℤ :=
  o.accountDeadline.or ((nonzero o.presignedAt).map (· + accountWindowSec))

/-- `cosignDeadlineOf`. -/
def cosignDeadlineOf (o : OnchainOrder) : Option ℤ :=
  o.cosignDeadline.or ((nonzero o.remittedAt).map (· + cosignWindowSec))

/-- `krwDeadlineOf`. -/
def krwDeadlineOf (o : OnchainOrder) : Option ℤ :=
  (nonzero o.krwDeadline).or ((nonzero o.accountSentAt).map (· + krwWindowSec))

end OnchainOrder

/-- `isOrderExpiryAllowed`; a tag that is no number is not allowed. -/
def isOrderExpiryAllowed (expiration : Option ℚ) (now : ℤ) : Bool :=
  match expiration with
  | some e => (now : ℚ) < e && e - now ≤ maxOrderExpirySec
  | none => false

/-! ## Amounts -/

/-- `requiredConfirmations`, for an amount that is positive. -/
def requiredConfirmations (amountSat : ℚ) : ℕ :=
  if amountSat < 100000 then 1 else if amountSat < 1000000 then 2 else 3

/-- `releaseFeerateProblem`: the texts are those of the source. -/
def releaseFeerateProblem (feerateSatPerVb fastestSatPerVb amountSat releaseFeeSat dustSat : ℚ) :
    Option String :=
  let ceiling := max 100 (fastestSatPerVb * 5)
  if feerateSatPerVb < 1 then
    some "수수료율은 최소 1 sat/vB입니다 — 그보다 낮으면 릴리스가 중계되지 않습니다"
  else if ceiling < feerateSatPerVb then some s!"수수료율이 너무 높습니다 (최대 {ceiling} sat/vB)"
  else if amountSat * (1 / 5) < releaseFeeSat then some "수수료가 거래액의 20%를 넘습니다"
  else if amountSat - releaseFeeSat < dustSat then some "수수료를 빼면 받을 금액이 dust 이하입니다"
  else none

/-- `reserveProblem`. -/
def reserveProblem (toLocaleString : ℚ → String) (reserveKrw amountSat : ℚ)
    (btcPriceKrw : Option ℚ) : Option String :=
  if reserveKrw ≤ 0 then some "최저가는 원 단위 양수여야 합니다"
  else match btcPriceKrw.filter (0 < ·) with
  | none => some ("지금 시세를 확인할 수 없어 최저가를 걸 수 없습니다. " ++
      "잠시 후 다시 시도하거나 최저가 없이 등록하세요")
  | some price =>
    let ceiling := (⌊amountSat / 100000000 * price * (97 / 100)⌋ : ℚ)
    if ceiling < reserveKrw then
      some ("최저가는 지금 시세보다 3% 이상 낮아야 합니다 " ++
        s!"(지금 기준 최대 {toLocaleString ceiling}원)")
    else none

/-- `designatedMinTradeSat`. -/
def designatedMinTradeSat (settlementFeeSat : ℚ) : ℚ := ⌈settlementFeeSat * 20⌉

/-- `settlementFeeSat`. -/
def settlementFeeSat {P : Type} (lib : BtcSigner P) (path : SettlementPath)
    (descriptor : EscrowDescriptor) (destination : String) (feerateSatPerVb : ℚ) :
    Except String ℚ := do
  throwUnless (0 < feerateSatPerVb) s!"feerate가 비정상이다: {feerateSatPerVb}"
  let vsize ← estimateSettlementVsize lib path descriptor destination
  return ⌈vsize * feerateSatPerVb⌉

/-- `settlementPathForKind`. -/
def settlementPathForKind : SettlementKind → SettlementPath
  | .release => .release
  | .sponsorWin => .sponsorWin
  | .customerWin => .customerWin
  | .refundReserve | .refundSponsorTimeout | .refundCustomerLate | .refundBondExpired
  | .refundAccountDisputed => .refund

end LnPay
