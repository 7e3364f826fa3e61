/-
# Requests and commands of the on-chain track (`daemon/src/onchain/handlers.ts`, `commands.ts`)

Every request is judged by the state of the order first: a screen that is out of
date, or a client that has been changed, must not get anywhere.  The daemon signs
last, on a transaction it has built itself.
-/
import LnPay.OcFlow

namespace LnPay

/-! ## Requests -/

/-- `OnchainDesignatedOrderPayload`. -/
structure OcDesignatedOrder where
  amountSat : ℚ
  customerXonly : String
  reserveKrw : Option ℚ
  refundAddress : String
  designatedSponsor : Pubkey

/-- The encrypted part of a request, by what the type guards look at. -/
structure OcPayload where
  refundAddress : Option String
  payoutAddress : Option String
  feerateSatPerVb : Option ℚ
  psbt : Option String
  designated : Option OcDesignatedOrder

/-- An inbox event of the on-chain track. -/
abbrev OcEvent := InboxEvent OcPayload

/-- The payload, if the content could be opened. -/
def OcEvent.opened (event : OcEvent) : Option OcPayload :=
  match event.content with
  | .payload p => some p
  | .undecryptable | .badPayload => none

/-- `isOnchainOrderRequestPayload`. -/
def OcEvent.refundAddress (event : OcEvent) : Option String :=
  (OcEvent.opened event).bind fun p => p.refundAddress.filter fun a => jsTrim a ≠ ""

/-- `isOnchainClaimPayload`. -/
def OcEvent.claimTerms (event : OcEvent) : Option (String × ℚ) :=
  (OcEvent.opened event).bind fun p =>
    match given p.payoutAddress, p.feerateSatPerVb.filter (0 < ·) with
    | some address, some feerate => some (address, feerate)
    | _, _ => none

/-- `isOnchainPsbtPayload`. -/
def OcEvent.psbt (event : OcEvent) : Option String :=
  (OcEvent.opened event).bind fun p => given p.psbt

/-- `isSignPurpose`. -/
def signPurposeOf (s : String) : Option SignPurpose :=
  [SignPurpose.release, .refund, .disputeCustomer, .disputeSponsor, .rescue].find? fun p => p.text = s

/-- A handler's answer; a rejection is sent to a recipient. -/
inductive OcAnswer
  | ok
  | ignored (reason : String)
  | rejected (recipient : Pubkey) (text : String)
  deriving DecidableEq, Repr

/-- A handler's answer with the ledger it leaves. -/
abbrev OcHandled := Except Abort (OcAnswer × OcDb)

/-- `MAX_CLAIM_CANDIDATES`. -/
def maxClaimCandidates : ℕ := 5

/-- `MAX_OPEN_DESIGNATED_PER_CUSTOMER`. -/
def maxOpenOcDesignated : ℕ := 3

/-- `awaitingSignerFor`. -/
def awaitingSponsor (kind : SettlementKind) : Bool := kind = .sponsorWin

namespace OcCtx

variable {P : Type} (ctx : OcCtx P)

/-- The request is not accepted. -/
def ignored (reason : String) (db : OcDb) : OcHandled := .ok (.ignored reason, db)

/-- `reject`: the request is not accepted, and its sender is told why. -/
def reject (event : OcEvent) (text : String) (db : OcDb) : OcHandled :=
  .ok (.rejected event.pubkey text, db)

/-- The request is accepted and leaves this ledger. -/
def accepted (db : Except Abort OcDb) : OcHandled := db.map fun db => (.ok, db)

/-- `requestAt`: when the request was made, but never later than now. -/
def requestAt (event : OcEvent) : ℤ := min event.createdAt ctx.now

/-! ## Orders -/

/-- `orderGate`: why the order is not taken; a reserve that is no number is `some none`. -/
def orderGate (event : OcEvent) (orderId : OrderId) (amountSat : Option ℚ)
    (reserveKrw : Option (Option ℚ)) (db : OcDb) : Option OcAnswer :=
  if ¬ amountSat.any (fun a => a.isInt ∧ 0 < a) then some (.ignored "bad-request")
  else if reserveKrw.any (fun r => ¬ r.any (0 < ·)) then some (.ignored "bad-reserve")
  else if (getOc orderId db).isSome ∨ candidatesOf orderId db ≠ [] then some (.ignored "duplicate")
  else if ¬ db.track.acceptNewOrders then some (.rejected event.pubkey "지금은 온체인 판매를 받지 않습니다")
  else none

/-- `orderTermsProblem`. -/
def orderTermsProblem (amountSat : ℚ) (reserveKrw : Option ℚ) (expiration : Option ℚ)
    (refundAddress : String) : Option String :=
  match addressProblem ctx.env.lib refundAddress ctx.env.network with
  | some problem => some ("환불 주소를 쓸 수 없습니다: " ++ problem)
  | none =>
    if ¬ isOrderExpiryAllowed expiration ctx.now then
      some "유효 기간이 허용 범위(최대 7일)를 벗어났습니다"
    else reserveKrw.bind fun reserve =>
      reserveProblem ctx.env.lib.toLocaleString reserve amountSat ctx.price

/-- `ocOrderRequest`: a customer's deposit first. -/
def ocOrderRequest (event : OcEvent) (db : OcDb) : OcHandled :=
  match (extractOrderId event.tags).filter isOrderId with
  | none => ignored "bad-order-id" db
  | some orderId =>
    let amountSat := (tagValue event.tags "amount-sat").bind ctx.env.toNumber
    let reserveKrw := (tagValue event.tags "reserve-krw").map ctx.env.toNumber
    let expiration := (tagValue event.tags "expiration").bind ctx.env.toNumber
    match (tagValue event.tags "customer-xonly").filter isHex64 with
    | none => ignored "bad-request" db
    | some customerXonly =>
      match orderGate event orderId amountSat reserveKrw db with
      | some answer => .ok (answer, db)
      | none =>
        match event.refundAddress with
        | none => reject event "환불 받을 주소가 없습니다. 앱을 새로 고친 뒤 다시 등록해 주세요" db
        | some refundAddress =>
          let amountSat := amountSat.getD 0
          let reserveKrw := reserveKrw.bind id
          match ctx.orderTermsProblem amountSat reserveKrw expiration (jsTrim refundAddress) with
          | some problem => reject event problem db
          | none =>
            let expiration := expiration.getD 0
            match currentFees ctx.now db with
            | none => reject event "네트워크 수수료를 조회하지 못했습니다. 잠시 후 다시 시도해 주세요" db
            | some fees =>
              let floor := depositFloorSat ⌈typicalSettlementVsize * fees.halfHour⌉
              if amountSat < minTradeSat floor then
                reject event (s!"지금 수수료 기준 최소 거래액은 {ctx.env.lib.toLocaleString (minTradeSat floor)} " ++
                  s!"sats입니다 (요청: {ctx.env.lib.toLocaleString amountSat} sats)") db
              else
                let cltvBlocks := depositCltvBlocks expiration ctx.now
                if ocCltvMaxBlocks < cltvBlocks then
                  reject event "유효 기간이 길어 보증금 인보이스를 만들 수 없습니다" db
                else accepted do
                  let (inv, db) ← plan ctx.env.keys ctx.now
                    ⟨.ocCustomerBond, orderId, event.pubkey,
                      (ocDepositSat amountSat customerDepositPercent floor).num.toNat, ⌊expiration⌋,
                      cltvBlocks⟩ db
                  putCandidate ⟨inv.paymentHash, orderId, event.pubkey,
                    .customer ⟨amountSat, reserveKrw, expiration, customerXonly,
                      jsTrim refundAddress⟩ cltvBlocks, ctx.now⟩ db

/-- `ocDesignatedOrderRequest`: the sponsor is named, so there is no deposit. -/
def ocDesignatedOrderRequest (event : OcEvent) (db : OcDb) : OcHandled :=
  match (extractOrderId event.tags).filter isOrderId with
  | none => ignored "bad-order-id" db
  | some orderId =>
    match event.content with
    | .undecryptable => ignored "undecryptable" db
    | .badPayload => ignored "bad-payload" db
    | .payload p =>
      match p.designated with
      | none => ignored "bad-payload" db
      | some t =>
        let expiration := (tagValue event.tags "expiration").bind ctx.env.toNumber
        if ¬ isHex64 t.customerXonly then ignored "bad-request" db
        else match orderGate event orderId (some t.amountSat) (t.reserveKrw.map some) db with
        | some answer => .ok (answer, db)
        | none =>
          if t.designatedSponsor = event.pubkey then
            reject event "자기 자신을 상대로 지정할 수 없습니다" db
          else if maxOpenOcDesignated ≤ openOcDesignatedCount event.pubkey db then
            reject event (s!"수락을 기다리는 지정 거래가 이미 {maxOpenOcDesignated}건입니다. " ++
              "상대가 수락하거나 내린 뒤 다시 등록해 주세요") db
          else
            let refundAddress := jsTrim t.refundAddress
            match ctx.orderTermsProblem t.amountSat t.reserveKrw expiration refundAddress with
            | some problem => reject event problem db
            | none =>
              match currentFees ctx.now db with
              | none => reject event "네트워크 수수료를 조회하지 못했습니다. 잠시 후 다시 시도해 주세요" db
              | some fees =>
                let minTrade := designatedMinTradeSat ⌈typicalSettlementVsize * fees.halfHour⌉
                if t.amountSat < minTrade then
                  reject event ("지금 수수료 기준 지정 거래 최소액은 " ++
                    s!"{ctx.env.lib.toLocaleString minTrade} sats입니다 " ++
                    s!"(요청: {ctx.env.lib.toLocaleString t.amountSat} sats)") db
                else accepted (ctx.listOc orderId event.pubkey
                  ⟨t.amountSat, t.reserveKrw, expiration.getD 0, t.customerXonly, refundAddress⟩
                  none (some t.designatedSponsor) db)

/-! ## Claims -/

/-- `dummyDescriptorFor`: as long as there is no key of the daemon's, any will do for the size. -/
def dummyDescriptorFor (order : OnchainOrder) (sponsorXonly : String) :
    Except String EscrowDescriptor :=
  deriveEscrowAddress ctx.env.lib
    ⟨order.customerXonly.getD (String.ofList (List.replicate 64 '1')), sponsorXonly,
      String.ofList (List.replicate 64 '2')⟩ order.network none

/-- The release fee and the dust limit of a claim. -/
def claimFees (order : OnchainOrder) (sponsorXonly payoutAddress : String) (feerate : ℚ) :
    Except String (ℚ × ℚ) := do
  let dummy ← ctx.dummyDescriptorFor order sponsorXonly
  let releaseFeeSat ← settlementFeeSat ctx.env.lib .release dummy payoutAddress feerate
  let dustSat ← dustThresholdFor ctx.env.lib payoutAddress dummy
  return (releaseFeeSat, dustSat)

/-- The address and the rate of a claim, when the track can live with them. -/
def claimInfo (event : OcEvent) (order : OnchainOrder) (sponsorXonly : String) (db : OcDb) :
    Except String (SponsorClaimInfo × FeeEstimates) :=
  match event.claimTerms with
  | none => .error "받을 주소·수수료율을 읽지 못했습니다. 다시 시도해 주세요"
  | some (address, feerate) =>
    let payoutAddress := jsTrim address
    match addressProblem ctx.env.lib payoutAddress order.network with
    | some problem => .error ("받을 주소를 쓸 수 없습니다: " ++ problem)
    | none =>
      match currentFees ctx.now db with
      | none => .error "네트워크 수수료를 조회하지 못했습니다. 잠시 후 다시 시도해 주세요"
      | some fees =>
        match ctx.claimFees order sponsorXonly payoutAddress feerate with
        | .error e => .error ("받을 주소·키를 쓸 수 없습니다: " ++ e)
        | .ok (releaseFeeSat, dustSat) =>
          match releaseFeerateProblem feerate fees.fastest order.amountSat releaseFeeSat dustSat with
          | some problem => .error problem
          | none => .ok (⟨sponsorXonly, payoutAddress, feerate⟩, fees)

/-- `ocClaim`. -/
def ocClaim (event : OcEvent) (db : OcDb) : OcHandled :=
  match (extractOrderId event.tags).filter isOrderId with
  | none => ignored "bad-order-id" db
  | some orderId =>
    match (tagValue event.tags "sponsor-xonly").filter isHex64 with
    | none => ignored "bad-request" db
    | some sponsorXonly =>
      match (getOc orderId db).filter fun row => row.order.state = .listed with
      | none => reject event "이 판매는 이미 다른 분이 샀거나 끝났습니다" db
      | some row =>
        let order := row.order
        let sponsors := (candidatesOf orderId db).filter OcCandidate.isSponsor
        if event.pubkey = order.customerPubkey then reject event "자기 판매는 살 수 없습니다" db
        else if (given order.designatedSponsor).any (· ≠ event.pubkey) then
          reject event "이 판매는 지정된 상대만 살 수 있습니다" db
        else if order.expiration ≤ ctx.now then reject event "판매가 만료됐습니다" db
        else if sponsors.any fun c => c.party = event.pubkey then ignored "duplicate" db
        else if maxClaimCandidates ≤ sponsors.length then
          reject event "이 판매에 보증금 결제를 기다리는 분이 이미 여럿입니다 — 잠시 후 다시 시도해 주세요" db
        else match ctx.claimInfo event order sponsorXonly db with
        | .error text => reject event text db
        | .ok (info, fees) =>
          if (given order.designatedSponsor).isSome then do
            let (bonded, db) ← ctx.bondOc row event.pubkey info none db
            if bonded then .ok (.ok, db)
            else reject event "에스크로 주소를 만들지 못했습니다 — 키를 확인한 뒤 다시 시도해 주세요" db
          else
            let floor := depositFloorSat ⌈typicalSettlementVsize * fees.halfHour⌉
            let cltvBlocks := depositCltvBlocks order.expiration ctx.now
            if ocCltvMaxBlocks < cltvBlocks then
              reject event "판매 만료가 너무 멀어 보증금을 받을 수 없습니다" db
            else accepted do
              let (inv, db) ← plan ctx.env.keys ctx.now
                ⟨.ocSponsorBond, orderId, event.pubkey,
                  (ocDepositSat order.amountSat sponsorDepositPercent floor).num.toNat,
                  ⌊order.expiration⌋, cltvBlocks⟩ db
              putCandidate ⟨inv.paymentHash, orderId, event.pubkey, .sponsor info cltvBlocks,
                ctx.now⟩ db

/-! ## Presignature -/

/-- `ocPresig`. -/
def ocPresig (event : OcEvent) (row : OcRow) (db : OcDb) : OcHandled :=
  let order := row.order
  if some event.pubkey ≠ order.sponsorPubkey then ignored "not-sponsor" db
  else if order.state ≠ .funded ∨ order.settlementKind.isSome then
    reject event "사전서명을 받을 수 없는 단계입니다 — 마감이 지나 환불로 넘어갔을 수 있습니다" db
  else if isPast order.presignDeadlineOf (ctx.requestAt event) then
    reject event "사전서명 마감(가격 확정 후 15분)이 지났습니다" db
  else match (given row.ocMeta.payoutAddress).bind fun _ =>
      settlementParamsFor ctx.env order row.ocMeta .release order.settlementFeeSat with
  | none => ignored "no-material" db
  | some expected =>
    match event.psbt with
    | none => ignored "bad-payload" db
    | some psbt =>
      match verifyPresignature ctx.env.lib psbt expected (order.sponsorXonly.getD "") with
      | .error reason => reject event (s!"사전서명이 맞지 않습니다: {reason} — 클레임 때 낸 " ++
          "받을 주소·수수료율과 같은지 확인하세요") db
      | .ok _ => accepted do
        let (_, db) ← updateOc ctx.now order.orderId (fun o => { o with
            state := .presigned, presignedAt := some ctx.now
            accountDeadline := some (ctx.now + accountWindowSec) })
          (fun m => { m with presigPsbt := some psbt }) db
        return ctx.sendOcSignRequest order.orderId order.customerPubkey .release psbt db

/-! ## Cosignatures -/

/-- The transaction with the signature that has come in and the last one; `none` when the stored
presignature does not fit it any more. -/
def completeSettlement (row : OcRow) (release : Bool) (expected : BuildSettlementParams)
    (signerXonly : String) (sig leafScript : Bytes) : Except String (Option (String × String)) := do
  let tx ← buildSettlementTx ctx.env.lib expected
  let tx ← addTapScriptSig ctx.env.lib tx leafScript signerXonly sig
  let signed ← if release then
      match (given row.ocMeta.presigPsbt).map fun psbt => verifyPresignature ctx.env.lib psbt expected
          (row.order.sponsorXonly.getD "") with
      | some (.ok (sponsorSig, sponsorLeaf)) => (addTapScriptSig ctx.env.lib tx sponsorLeaf
          (row.order.sponsorXonly.getD "") sponsorSig).map some
      | _ => .ok none
    else (signSettlement ctx.env.lib tx (ctx.env.adminKeyOf row.order.orderId)).map some
  match signed with
  | none => return none
  | some tx =>
    let rawHex ← ctx.env.finalizedHex tx
    let txid ← ctx.env.lib.txid tx
    return some (rawHex, txid)

/-- `ocRescueCosign`: which output is read from the PSBT, everything else is on record. -/
def ocRescueCosign (event : OcEvent) (row : OcRow) (db : OcDb) : OcHandled :=
  let order := row.order
  match (given order.customerXonly).filter fun _ => event.pubkey = order.customerPubkey with
  | none => ignored "not-customer" db
  | some customerXonly =>
    match event.psbt with
    | none => ignored "bad-payload" db
    | some psbt =>
      match (ctx.env.lib.fromPsbtBase64 psbt).toOption.bind fun tx => tx.inputs.head?.bind fun i =>
          match given i.txid, i.index with
          | some txid, some vout => some (⟨txid, vout⟩ : Outpoint)
          | _, _ => none with
      | none => ignored "bad-psbt" db
      | some outpoint =>
        let key := formatOutpoint outpoint
        match rescueOf key row.ocMeta with
        | none => ignored "unrequested-rescue" db
        | some rescue =>
          if (given rescue.broadcastTxid).isSome ∨ (given rescue.rawHex).isSome then
            ignored "already" db
          else if isPinnedOfLiveTrade order outpoint then ignored "live-escrow" db
          else match escrowDescriptorFor ctx.env order with
          | none => ignored "no-material" db
          | some descriptor =>
            let expected : BuildSettlementParams := ⟨descriptor, outpoint, rescue.utxo.valueSat,
              .refund, rescue.destination, rescue.feeSat⟩
            match verifyPresignature ctx.env.lib psbt expected customerXonly with
            | .error reason => reject event ("구조 서명이 맞지 않습니다: " ++ reason) db
            | .ok (sig, leafScript) =>
              match ctx.completeSettlement row false expected customerXonly sig leafScript with
              | .ok (some (rawHex, txid)) =>
                .ok (.ok, requestBroadcast order.orderId txid (some key) (updateOcMeta order.orderId
                  (setRescue key { rescue with rawHex := some rawHex }) db))
              | _ => ignored "cannot-finalize" db

/-- `ocCosign`: the state decides which signature may come in. -/
def ocCosign (event : OcEvent) (row : OcRow) (db : OcDb) : OcHandled :=
  match (tagValue event.tags "purpose").bind signPurposeOf with
  | none => ignored "bad-purpose" db
  | some .rescue => ctx.ocRescueCosign event row db
  | some purpose =>
    let order := row.order
    if ¬ canActOnSignRequest order.state purpose order.settlementKind then ignored "not-now" db
    else match (if purpose = .release then some .release else order.settlementKind).filter
        fun kind => signPurposeFor kind = purpose with
    | none => ignored "purpose-mismatch" db
    | some kind =>
      let expectedSender := if awaitingSponsor kind then order.sponsorPubkey
        else some order.customerPubkey
      let signerXonly := if awaitingSponsor kind then order.sponsorXonly else order.customerXonly
      match (given signerXonly).filter fun _ => some event.pubkey = expectedSender with
      | none => ignored "not-signer" db
      | some signerXonly =>
        match settlementParamsFor ctx.env order row.ocMeta kind order.settlementFeeSat with
        | none => ignored "no-material" db
        | some expected =>
          match event.psbt with
          | none => ignored "bad-payload" db
          | some psbt =>
            match verifyPresignature ctx.env.lib psbt expected signerXonly with
            | .error reason => reject event ("서명이 맞지 않습니다: " ++ reason) db
            | .ok (sig, leafScript) =>
              match ctx.completeSettlement row (kind = .release) expected signerXonly sig
                leafScript with
              | .error _ => ignored "cannot-finalize" db
              | .ok none => ignored "no-presig" db
              | .ok (some (rawHex, txid)) =>
                accepted (ctx.enterSettling order.orderId kind txid rawHex db)

/-! ## Money, account, cancellation, dispute -/

/-- `ocRemit`. -/
def ocRemit (event : OcEvent) (row : OcRow) (db : OcDb) : OcHandled :=
  let order := row.order
  if some event.pubkey ≠ order.sponsorPubkey then ignored "not-sponsor" db
  else if order.state ≠ .presigned ∨ order.settlementKind.isSome then
    reject event "송금 완료를 받을 수 없는 단계입니다 — 마감이 지나 환불로 넘어갔을 수 있습니다" db
  else if (nonzero order.accountSentAt).isNone then
    reject event "파는 사람의 계좌가 아직 전달되지 않았습니다" db
  else if isPast order.krwDeadlineOf (ctx.requestAt event) then reject event "원화 송금 마감이 지났습니다" db
  else accepted ((updateOc ctx.now order.orderId (fun o => { o with
      state := .remitted, remittedAt := some ctx.now
      cosignDeadline := some (ctx.now + cosignWindowSec) }) id db).map Prod.snd)

/-- `ocAccountInfo`: only that it was sent, and the commitment. -/
def ocAccountInfo (event : OcEvent) (row : OcRow) (db : OcDb) : OcHandled :=
  let order := row.order
  if event.pubkey ≠ order.customerPubkey then ignored "not-customer" db
  else if order.state ≠ .presigned ∨ (nonzero order.accountSentAt).isSome ∨
      order.settlementKind.isSome then ignored "bad-state" db
  else if isPast order.accountDeadlineOf (ctx.requestAt event) then
    reject event "계좌 공개 마감이 지나 거래가 환불로 넘어갑니다" db
  else accepted ((updateOc ctx.now order.orderId (fun o => { o with
      accountSentAt := some ctx.now, krwDeadline := some (ctx.now + krwWindowSec) })
    (fun m => { m with
      accountCommitment := (given (tagValue event.tags "commitment")).or m.accountCommitment })
    db).map Prod.snd)

/-- `ocCancel`: from `listed` only. -/
def ocCancel (event : OcEvent) (db : OcDb) : OcHandled :=
  match given (extractOrderId event.tags) with
  | none => ignored "no-order" db
  | some orderId =>
    match getOc orderId db with
    | none =>
      let mine := (candidatesOf orderId db).filter fun c => !c.isSponsor && c.party = event.pubkey
      let db' := mine.foldl (fun db c => dropCandidate c db) db
      if mine ≠ [] then .ok (.ok, db') else ignored "unknown-order" db'
    | some row =>
      if event.pubkey ≠ row.order.customerPubkey then ignored "not-customer" db
      else if row.order.state ≠ .listed then
        reject event "사는 사람이 이미 붙어 판매를 내릴 수 없습니다" db
      else accepted do
        let (cancelled, db) ← updateOc ctx.now orderId (fun o => { o with state := .cancelled }) id db
        return dropSponsorCandidates orderId (applyOutcome cancelled .cancelByCustomer db)

/-- `ocDispute`: after the money has been claimed to be sent; before that only the time of an
objection is kept. -/
def ocDispute (event : OcEvent) (row : OcRow) (db : OcDb) : OcHandled :=
  let order := row.order
  if event.pubkey ≠ order.customerPubkey ∧ some event.pubkey ≠ order.sponsorPubkey then
    ignored "not-a-party" db
  else if order.state = .remitted then
    accepted ((updateOc ctx.now order.orderId (fun o => { o with
      state := .disputed, disputedAt := some ctx.now }) id db).map Prod.snd)
  else if order.state = .presigned ∧ tagValue event.tags "stage" = some "account-unusable" then
    if some event.pubkey = order.sponsorPubkey ∧ order.accountSentAt.isSome ∧
        (nonzero order.accountDisputedAt).isNone ∧ order.settlementKind.isNone ∧
        ¬ isPast order.krwDeadlineOf (ctx.requestAt event) then
      accepted ((updateOc ctx.now order.orderId (fun o => { o with
        accountDisputedAt := some ctx.now }) id db).map Prod.snd)
    else reject event "계좌 이의는 계좌를 받은 뒤 송금 마감 전에만 낼 수 있습니다" db
  else reject event "이 단계에서는 분쟁을 열 수 없습니다" db

end OcCtx

/-! ## Routing -/

/-- The actions of the on-chain track. -/
inductive OcAction
  | orderRequest | designatedOrderRequest | claim | presig | cosign | dispute | remitRequest
  | accountInfo | cancelRequest
  deriving DecidableEq, Repr

namespace OcCtx

variable {P : Type} (ctx : OcCtx P)

/-- `withRow`. -/
def withRow (event : OcEvent) (db : OcDb) (handler : OcEvent → OcRow → OcDb → OcHandled) :
    OcHandled :=
  match given (extractOrderId event.tags) with
  | none => ignored "no-order" db
  | some orderId =>
    match getOc orderId db with
    | none => ignored "unknown-order" db
    | some row => handler event row db

/-- `createOcHandlers`. -/
def handleOc (action : OcAction) (event : OcEvent) (db : OcDb) : OcHandled :=
  match action with
  | .orderRequest => ctx.ocOrderRequest event db
  | .designatedOrderRequest => ctx.ocDesignatedOrderRequest event db
  | .claim => ctx.ocClaim event db
  | .presig => withRow event db ctx.ocPresig
  | .cosign => withRow event db ctx.ocCosign
  | .dispute => withRow event db ctx.ocDispute
  | .remitRequest => withRow event db ctx.ocRemit
  | .accountInfo => withRow event db ctx.ocAccountInfo
  | .cancelRequest => ctx.ocCancel event db

/-! ## Commands -/

end OcCtx

/-- The operators' commands on an order. -/
inductive OcCommand
  | rule (sponsorWins : Bool)
  | accountDispute (accountBad : Bool)
  | resend
  | rescue (txid : String) (vout : ℕ)
  deriving DecidableEq, Repr

namespace OcCtx

variable {P : Type} (ctx : OcCtx P)

/-- The body of a command, with its error. -/
def runOcCommand (cmd : OcCommand) (row : OcRow) (db : OcDb) : Except Abort (Option String × OcDb) :=
  let orderId := row.order.orderId
  match cmd with
  | .rule sponsorWins =>
    ctx.decideSettlement orderId (if sponsorWins then .sponsorWin else .customerWin) none db
  | .accountDispute accountBad => ctx.resolveAccountDispute orderId accountBad db
  | .resend =>
    if row.order.state = .presigned ∨ row.order.state = .remitted then
      match ctx.resendRelease row db with
      | some db => .ok (none, db)
      | none => .ok (some "no-presig", db)
    else if row.order.state = .refunding ∨
        (row.order.state = .disputed ∧ row.order.settlementKind.isSome) then do
      let (sent, db) ← ctx.requestSettlementSignature orderId db
      return (if sent then none else some "no-material", db)
    else .ok (some "bad-state", db)
  | .rescue txid vout =>
    match row.ocMeta.strays.find? fun u => u.txid = txid ∧ u.vout = vout with
    | none => .ok (some "unknown-utxo", db)
    | some utxo => .ok (ctx.requestRescue orderId utxo db)

/-- A command names the version of the order it was given for. -/
def ocCommand (cmd : OcCommand) (orderId : OrderId) (version : ℕ) (db : OcDb) :
    Except Abort (Option String × OcDb) :=
  match getOc orderId db with
  | none => .ok (some "unknown-order", db)
  | some row =>
    if row.version ≠ version then .ok (some "stale-version", db)
    else ctx.runOcCommand cmd row db

end OcCtx

end LnPay
