/-
# What the watcher decides (`daemon/src/onchain/decide.ts`)

A pure function of the order, the clock and what is known of the chain.  What is
not known is never acted on.
-/
import LnPay.OcChain

namespace LnPay

/-- `OnchainAction`. -/
inductive OnchainAction
  | idle
  | hold (why : String)
  | anomaly (why : String)
  | warn (why : String)
  | disputeSoon
  | fund (outpoint : Outpoint) (confirmations : ℕ) (priceKrw : ℤ)
  | fold (outpoint : Outpoint) (confirmations : ℕ) (settlementKind : SettlementKind)
  | cancel
  | reorg
  | settle (settlementKind : SettlementKind)
  | dispute
  | confirmed
  | observeSpend (txid : String) (leaf : Option EscrowLeafName)
  | rebroadcast
  deriving DecidableEq

/-- `OnchainWatchContext`. -/
structure OnchainWatchContext where
  now : ℤ
  funds : Query AddressFunds
  pinned : Option PinnedFacts
  settlementTx : Option (Query TxStatus)
  btcPriceKrw : Option ℚ
  sponsorBondAlive : Option Bool
  accountInfoSent : Bool
  canRebroadcast : Bool

variable (order : OnchainOrder) (ctx : OnchainWatchContext)

/-- `decideBonded`. -/
def decideBonded : OnchainAction :=
  match judgeFunding ctx.funds order.amountSat with
  | .unknown reason => .hold ("체인 조회 실패: " ++ reason)
  | .anomaly reason => .anomaly reason
  | .confirming _ _ => .idle
  | .none | .pending =>
    let deadline := order.fundingDeadline.getD 0
    if 0 < deadline ∧ deadline ≤ ctx.now then .cancel else .idle
  | .funded outpoint confirmations =>
    -- a designated trade has no bond to be alive
    let bondAlive := if (given order.designatedSponsor).isSome then some true else ctx.sponsorBondAlive
    match bondAlive with
    | some false => .fold outpoint confirmations .refundBondExpired
    | none => .hold "후원자 보증금 생존을 모른다 (O-015)"
    | some true =>
      match ctx.btcPriceKrw.filter (0 < ·) with
      | none => .hold "신선한 시세가 없다 — 가격을 고정할 수 없다"
      | some price =>
        let priceKrw := ⌊order.amountSat / 100000000 * price + 1 / 2⌋
        if order.reserveKrw.any fun reserve => (priceKrw : ℚ) < reserve then
          .fold outpoint confirmations .refundReserve
        else .fund outpoint confirmations priceKrw

/-- `decidePresigned`. -/
def decidePresigned : OnchainAction :=
  if ¬ ctx.accountInfoSent then
    if isPast order.accountDeadlineOf ctx.now then .settle .refundCustomerLate else .idle
  else if ¬ isPast order.krwDeadlineOf ctx.now then .idle
  else .settle
    (if (nonzero order.accountDisputedAt).isSome then .refundAccountDisputed
      else .refundSponsorTimeout)

/-- `decideRemitted`. -/
def decideRemitted : OnchainAction :=
  let deadline := order.cosignDeadlineOf.getD cosignWindowSec
  if deadline ≤ ctx.now then .dispute
  else if deadline - cosignGraceWarningSec ≤ ctx.now then .disputeSoon
  else .idle

/-- `escalation`: a dispute has no deadline. -/
def escalation : OnchainAction :=
  let since := order.disputedAt.getD order.updatedAt
  if since + disputeEscalationSec.2 ≤ ctx.now then
    .warn "분쟁 14일 경과 — 이중화 경로를 호출할 것"
  else if since + disputeEscalationSec.1 ≤ ctx.now then
    .warn "분쟁 7일 경과 — 반복 알림 + 대시보드 최상단"
  else .idle

/-- What `decideSettling` makes of the settlement transaction. -/
def decideSettlementTx : OnchainAction :=
  match ctx.settlementTx with
  | none => .hold "종결 tx 상태를 아직 안 물어봤다"
  | some (.unknown reason) => .hold ("종결 tx 조회 실패: " ++ reason)
  | some (.known status) =>
    if status.confirmed ∧ requiredConfirmations order.amountSat ≤ status.confirmations then .confirmed
    else if status.seen = false then
      if ctx.canRebroadcast then .rebroadcast
      else .anomaly "종결 tx가 멤풀에 없고 다시 뿌릴 원본도 없다"
    else if order.settlingAt.getD order.updatedAt + settlingWarnSec ≤ ctx.now then
      .warn "종결 tx가 24시간 넘게 안 잡힌다 — 받는 쪽 CPFP 안내"
    else .idle

/-- `decideSettling`: there is no way back; the same transaction is sent again. -/
def decideSettling : OnchainAction :=
  match given order.settlementTxid with
  | none => .anomaly "settling인데 종결 txid가 없다"
  | some settlementTxid =>
    match ctx.pinned with
    | some (.spent txid leaf _) =>
      if txid ≠ settlementTxid then .observeSpend txid leaf else decideSettlementTx order ctx
    | _ => decideSettlementTx order ctx

/-- What the clock decides once the pinned outpoint is known to be there. -/
def decideAlive : OnchainAction :=
  match order.state with
  | .funded => if isPast order.presignDeadlineOf ctx.now then .settle .refundSponsorTimeout else .idle
  | .presigned => decidePresigned order ctx
  | .remitted => decideRemitted order ctx
  | .disputed => escalation order ctx
  | _ => .idle

/-- What is decided of a pinned outpoint. -/
def decidePinned : OnchainAction :=
  match ctx.pinned.getD (.unknown "펀딩 사실을 아직 안 물어봤다") with
  | .unknown reason => .hold ("체인 조회 실패: " ++ reason)
  | .spent txid leaf _ => .observeSpend txid leaf
  | .shallow _ =>
    -- only before money has flowed is there anywhere to go back to
    if order.state = .funded ∨ order.state = .presigned then .reorg
    else .hold "펀딩 컨펌이 얕아졌다 — 다시 캐지길 기다린다"
  | .gone =>
    if order.state = .funded ∨ order.state = .presigned then .reorg
    else .anomaly "펀딩 tx가 체인에서 사라졌다 (이중지불?) — 원화가 이미 오갔을 수 있다"
  | .alive _ => decideAlive order ctx

/-- `decideOnchainAction`. -/
def decideOnchainAction : OnchainAction :=
  match order.state with
  | .listed => if 0 < order.expiration ∧ order.expiration ≤ ctx.now then .cancel else .idle
  | .bonded => decideBonded order ctx
  | .funded | .presigned | .remitted | .disputed | .refunding =>
    if (given order.fundingOutpoint).isNone then .anomaly "funding-outpoint가 없거나 읽을 수 없다"
    else decidePinned order ctx
  | .settling =>
    if (given order.fundingOutpoint).isNone then .anomaly "funding-outpoint가 없거나 읽을 수 없다"
    else decideSettling order ctx
  | .released | .refunded | .sponsorWins | .customerWins | .cancelled | .swept => .idle

/-- `CLOCK_ACTIONS`: put off while the daemon warms up. -/
def OnchainAction.byClock : OnchainAction → Bool
  | .cancel | .settle _ | .dispute => true
  | _ => false

end LnPay
