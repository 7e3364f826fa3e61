/-
# What a device signs (`customer/src/onchain/verify.ts`, `customer/src/onchain/actions.ts`)

The daemon asks for a signature and sends a transaction.  The device does not
sign that transaction: it works out from its own records whom what must go to,
builds the transaction anew, and refuses unless the two have one txid.

  order, purpose, PSBT → escrow made from my key → terms of the purpose
    → fee within bounds → same txid → (release) the sponsor's signature
-/
import LnPay.OcOrder

namespace LnPay

variable {P : Type}

/-! ## The escrow of an order -/

/-- Why a check fails.  A throw that nothing catches is no answer either. -/
inductive SignError
  | refused (reason : String) (needsRefundAddress : Bool)
  | thrown (why : String)
  deriving DecidableEq, Repr

/-- A refusal for any reason but a missing refund address. -/
def refuse {α : Type} (reason : String) : Except SignError α := .error (.refused reason false)

/-- A call of the library whose throw is turned into a refusal. -/
def orRefuse {α : Type} (x : Except String α) (reason : String → String) : Except SignError α :=
  x.mapError fun e => .refused (reason e) false

/-- A call of the library whose throw is caught by nobody. -/
def orThrow {α : Type} (x : Except String α) : Except SignError α := x.mapError .thrown

/-- The two roles that sign here. -/
inductive SignRole
  | customer
  | sponsor
  deriving DecidableEq, Repr

/-- The role in the escrow. -/
def SignRole.escrowRole : SignRole → EscrowRole
  | .customer => .customer
  | .sponsor => .sponsor

/-- `checkEscrowAddress`: the address is made again with my key in my place. -/
def checkEscrowAddress (lib : BtcSigner P) (order : OnchainOrder) (role : SignRole)
    (myXonly : String) : Except EscrowRefusal EscrowDescriptor :=
  match given order.customerXonly, given order.sponsorXonly, given order.adminXonly,
      given order.escrowAddress with
  | some customer, some sponsor, some admin, some escrowAddress =>
    let keys : EscrowXonlyKeys := ⟨customer, sponsor, admin⟩
    if keys.of role.escrowRole ≠ myXonly then
      .error ⟨"오더에 실린 내 키가 내가 파생한 키와 다르다", none⟩
    else match assertEscrowKeys keys with
    | .error e => .error ⟨e, none⟩
    | .ok () => verifyEscrowAddress lib keys order.network order.timelockBlocks escrowAddress
  | _, _, _, _ => .error ⟨"아직 에스크로 정보가 오지 않았다", none⟩

/-! ## The check -/

/-- `SignCheckInput`. -/
structure SignCheckInput where
  order : OnchainOrder
  purpose : SignPurpose
  psbt : String
  role : SignRole
  myXonly : String
  refundAddress : Option String
  payoutAddress : Option String
  deriving DecidableEq

/-- The signature of the other side, for my transaction. -/
structure Counterparty where
  xonly : String
  sig : Bytes
  leafScript : Bytes
  deriving DecidableEq, Repr

/-- `SignCheck`, when it is in order. -/
structure SignCheck where
  expected : BuildSettlementParams
  destination : String
  amountSat : ℚ
  feeSat : ℚ
  counterparty : Option Counterparty
  deriving DecidableEq

/-- `refundDestination`: my refund address, or the address of my key of the order. -/
def refundDestination (lib : BtcSigner P) (order : OnchainOrder) (myXonly : String)
    (refundAddress : Option String) (shown : String) : Except SignError String := do
  let derived ← orThrow (deriveSingleKeyAddress lib myXonly order.network)
  if shown = derived then return derived
  match given refundAddress with
  | some address =>
    if shown = jsTrim address then return shown
    else refuse "받는 주소가 내 환불 주소가 아니다 — 서명하지 마세요"
  | none => .error (.refused "이 기기는 내가 낸 환불 주소를 모른다 — 주소를 입력하면 대조한다" true)

/-- Which output is spent, through which leaf, where to and at what fee. -/
structure SignTerms where
  outpoint : Outpoint
  valueSat : ℚ
  path : SettlementPath
  destination : String
  feeSat : ℚ

/-- The terms of a rescue: the input is read from the PSBT, and has to be of the escrow. -/
def rescueTerms (lib : BtcSigner P) (input : SignCheckInput) (descriptor : EscrowDescriptor)
    (theirs : BtcTransaction) (shown : String) : Except SignError SignTerms :=
  match theirs.inputs.head?.bind fun i => do
      let txid ← given i.txid
      let index ← i.index
      let utxo ← i.witnessUtxo
      return (txid, index, utxo) with
  | none => refuse "구조 PSBT에 입력 정보가 없다"
  | some (txid, index, script, amount) =>
    if script ≠ descriptor.payment.script then refuse "내 에스크로 주소의 자금이 아니다"
    else do
      let out := ((theirs.outputs.head?.bind (·.amount)).getD 0 : ℚ)
      let address ← refundDestination lib input.order input.myXonly input.refundAddress shown
      return ⟨⟨txid, index⟩, amount, .refund, address, amount - out⟩

/-- A release: the sponsor's address is not mine to know, his signature binds it. -/
def releaseTerms (input : SignCheckInput) (shown : String) (outpoint : Outpoint) :
    Except SignError SignTerms :=
  if input.role ≠ .customer then refuse "지급 서명은 파는 쪽이 한다"
  else match input.order.releaseFeeSat with
  | none => refuse "릴리스 수수료가 없다"
  | some feeSat => .ok ⟨outpoint, input.order.amountSat, .release, shown, feeSat⟩

/-- A ruling for the sponsor: the address of his claim. -/
def disputeSponsorTerms (input : SignCheckInput) (shown : String) (outpoint : Outpoint) :
    Except SignError SignTerms :=
  if input.role ≠ .sponsor then refuse "송금 인정 판정의 집행은 사는 쪽이 서명한다"
  else if input.order.settlementKind ≠ some .sponsorWin then refuse "송금 인정 판정이 없다"
  else match given input.payoutAddress with
  | none => refuse "클레임 때 낸 받을 주소를 이 기기가 모른다"
  | some payoutAddress =>
    if shown ≠ payoutAddress then refuse "받는 주소가 내가 낸 받을 주소가 아니다"
    else match input.order.settlementFeeSat with
    | none => refuse "결정된 수수료가 없다"
    | some feeSat => .ok ⟨outpoint, input.order.amountSat, .sponsorWin, payoutAddress, feeSat⟩

/-- A refund or a ruling for the customer: both come back to me, when they have been decided. -/
def refundTerms (lib : BtcSigner P) (input : SignCheckInput) (shown : String) (wantKind : Prop)
    [Decidable wantKind] (path : SettlementPath) (outpoint : Outpoint) :
    Except SignError SignTerms :=
  if input.role ≠ .customer then refuse "환불은 파는 쪽이 서명한다"
  else if ¬ wantKind then refuse "이 서명에 해당하는 결정이 없다"
  else match input.order.settlementFeeSat with
  | none => refuse "결정된 수수료가 없다"
  | some feeSat => do
    let address ← refundDestination lib input.order input.myXonly input.refundAddress shown
    return ⟨outpoint, input.order.amountSat, path, address, feeSat⟩

/-- The terms of a purpose.  All but a rescue spend the funding that is on record. -/
def signTerms (lib : BtcSigner P) (input : SignCheckInput) (descriptor : EscrowDescriptor)
    (theirs : BtcTransaction) (shown : String) : Except SignError SignTerms :=
  let funding := orRefuse ((parseOutpoint input.order.fundingOutpoint).elim (.error "") .ok)
    fun _ => "이 주문에 입금 기록이 없다"
  match input.purpose with
  | .rescue => rescueTerms lib input descriptor theirs shown
  | .release => funding >>= releaseTerms input shown
  | .disputeSponsor => funding >>= disputeSponsorTerms input shown
  | .refund => funding >>= refundTerms lib input shown (input.order.state = .refunding) .refund
  | .disputeCustomer => funding >>=
    refundTerms lib input shown (input.order.settlementKind = some .customerWin) .customerWin

/-- The sponsor's signature on a release. -/
def releaseCounterparty (lib : BtcSigner P) (input : SignCheckInput)
    (expected : BuildSettlementParams) : Except SignError (Option Counterparty) :=
  if input.purpose ≠ .release then .ok none
  else if input.order.payoutSat.any (· ≠ expected.valueSat - expected.feeSat) then
    refuse "릴리스 금액이 오더의 지급액과 다르다"
  else do
    let xonly := input.order.sponsorXonly.getD ""
    let (sig, leafScript) ← orRefuse (verifyPresignature lib input.psbt expected xonly)
      fun e => s!"상대방 서명이 맞지 않는다: {e}"
    return some ⟨xonly, sig, leafScript⟩

/-- The one input, the one output and the address it shows. -/
def shownAddress (lib : BtcSigner P) (theirs : BtcTransaction) (descriptor : EscrowDescriptor) :
    Except SignError String :=
  if theirs.inputs.length ≠ 1 ∨ theirs.outputs.length ≠ 1 then refuse "입력 1개·출력 1개가 아니다"
  else match given (outputAddressOf lib theirs descriptor) with
  | none => refuse "받는 주소를 읽지 못했다"
  | some shown => .ok shown

/-- `checkSignRequest`. -/
def checkSignRequest (lib : BtcSigner P) (input : SignCheckInput) : Except SignError SignCheck := do
  let descriptor ← (checkEscrowAddress lib input.order input.role input.myXonly).mapError
    fun e => SignError.refused e.reason false
  let theirs ← orRefuse (lib.fromPsbtBase64 input.psbt) fun e => s!"PSBT를 읽지 못했다: {e}"
  let shown ← shownAddress lib theirs descriptor
  let terms ← signTerms lib input descriptor theirs shown
  let expected : BuildSettlementParams :=
    ⟨descriptor, terms.outpoint, terms.valueSat, terms.path, terms.destination, terms.feeSat⟩
  let vsize ← orRefuse (estimateSettlementVsize lib terms.path descriptor terms.destination)
    fun e => s!"받는 주소를 쓸 수 없다: {e}"
  throwUnless (0 ≤ terms.feeSat ∧ terms.feeSat / vsize ≤ maxSaneSettlementFeerate)
    (SignError.refused s!"수수료가 비정상이다: {lib.toLocaleString terms.feeSat} sats" false)
  let mine ← orRefuse (buildSettlementTx lib expected) fun e => s!"기대 tx를 만들지 못했다: {e}"
  let mineId ← orRefuse (lib.txid mine) fun e => s!"기대 tx를 만들지 못했다: {e}"
  let theirId ← orThrow (lib.txid theirs)
  throwUnless (theirId = mineId) (SignError.refused
    "요청받은 tx가 내가 기대한 tx와 다르다 (금액·주소·수수료 중 무엇인가 다르다)" false)
  let counterparty ← releaseCounterparty lib input expected
  return ⟨expected, terms.destination, terms.valueSat - terms.feeSat, terms.feeSat, counterparty⟩

/-- `buildCosignature`: the transaction of the check, with the other side's signature and mine. -/
def buildCosignature (lib : BtcSigner P) (privkey : Bytes) (check : SignCheck) :
    Except String BtcTransaction := do
  let tx ← buildSettlementTx lib check.expected
  let tx ← check.counterparty.elim (.ok tx)
    fun c => addTapScriptSig lib tx c.leafScript c.xonly c.sig
  signSettlement lib tx privkey

end LnPay
