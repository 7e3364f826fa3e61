/-
# The Lightning effects (`daemon/src/ln/effects.ts`)

`ln.close` disposes of every invoice of an order by the rule of the reason, then
records the terminal state; `ln.payout` pays the sponsor.  Both are idempotent:
every invoice is looked up before it is touched, every payment is tracked before
it is made.

The executors are cut at their awaits.  `LnAwait` holds what a run has captured:
the order as read at its start, the ends it has collected, the invoices it still
has to see.
-/
import LnPay.LnFlow

namespace LnPay

/-! ## Payments -/

/-- The status of a payment on the node. -/
inductive PayStatus
  | succeeded | inFlight | failed
  deriving DecidableEq, Repr

/-- A text of the node (a failure reason, an error): none of the daemon's own marks. -/
structure NodeText where
  text : String
  ne_expired : text ≠ payoutInvoiceExpired
  ne_manualRequested : text ≠ payoutManualRequested
  ne_manual : text ≠ payoutManual

/-- What a payout run returns. -/
inductive PayoutOutcome
  | paid
  | expired (bolt11 : String)
  | manual (bolt11 : String)
  | skip
  deriving DecidableEq, Repr

/-- Paying is under way; asked again later. -/
def payoutInFlight : String := "결제 진행 중"

/-! ## Awaits and answers -/

/-- The awaits of the track's effects. -/
inductive LnAwait
  | hold (a : HoldAwait)
  | closeEscrowLookup (order : LnOrderRow) (rule : CloseRule) (escrow : HoldRow)
  | closeEscrowCall (order : LnOrderRow) (rule : CloseRule) (escrow : HoldRow) (final : HoldFinal)
  | closeLookup (finals : List (Hash × HoldFinal)) (inv : HoldRow) (want : DisposeAction)
      (todo : List (HoldRow × DisposeAction))
  | closeCall (finals : List (Hash × HoldFinal)) (inv : HoldRow) (final : HoldFinal)
      (todo : List (HoldRow × DisposeAction))
  | payoutTrack (order : LnOrderRow) (bolt11 : String) (info : Bolt11Info)
  | payoutPay (order : LnOrderRow) (bolt11 : String) (info : Bolt11Info)

/-- What an awaited call came back with. -/
inductive LnAnswer
  | node (a : NodeAnswer)
  | tracked (status : Option PayStatus)
  | paid (status : PayStatus) (failureReason : Option NodeText)
  | threw (error : NodeText)

/-- What a run of an effect returns. -/
inductive LnResult
  | hold (r : HoldResult)
  | closed (finals : List (Hash × HoldFinal))
  | payout (outcome : PayoutOutcome)

/-- What a run does next. -/
abbrev LnTurn := Turn LnAwait LnResult

/-- A turn of a hold effect as a turn of the track. -/
def holdTurn : Turn HoldAwait HoldResult → LnTurn
  | .await a => .await (.hold a)
  | .done r => .done (.hold r)
  | .retry e => .retry e
  | .dead e => .dead e

namespace LnCtx

variable (ctx : LnCtx)

/-! ## Closing -/

/-- The invoices a close goes through after the escrow, with what it wants of each: an escrow of an
earlier attempt and the deposit of an earlier sponsor are given back. -/
def closeTodo (order : LnOrderRow) (rule : CloseRule) (db : LnDb) :
    List (HoldRow × DisposeAction) :=
  (holdsOf order.orderId lnHoldPurposes db).filterMap fun inv =>
    if inv.purpose = .lnEscrow then
      if some inv.paymentHash ≠ order.escrowHash ∧ isLiveHold inv then some (inv, .cancel) else none
    else if isLiveHold inv then
      let disposition := if inv.purpose = .lnCustomerDeposit then rule.customerDeposit
        else if some inv.party = order.sponsor then rule.sponsorDeposit else .refund
      some (inv, if disposition = .forfeit then .settle else .cancel)
    else none

/-- The loop over the remaining invoices, up to its next await. -/
def closeLoop (finals : List (Hash × HoldFinal)) : List (HoldRow × DisposeAction) → LnTurn
  | [] => .done (.closed finals)
  | (inv, want) :: todo => .await (.closeLookup finals inv want todo)

/-- `ln.close` up to its first await. -/
def closeStart (orderId : OrderId) (db : LnDb) : LnTurn :=
  match getOrder orderId db with
  | none => .done (.closed [])
  | some order =>
    match order.pendingClose with
    | none => .done (.closed [])
    | some reason =>
      match order.escrowHash.bind db.holds.find with
      | some escrow => .await (.closeEscrowLookup order reason.rule escrow)
      | none =>
        if reason.rule.escrow = .settle then .dead "에스크로가 없다"
        else closeLoop [] (closeTodo order reason.rule db)

/-- After the lookup of the escrow: what cannot be taken is not paid out for. -/
def closeEscrowLooked (order : LnOrderRow) (rule : CloseRule) (escrow : HoldRow)
    (lookup : Option HoldLookup) (db : LnDb) : LnTurn :=
  if rule.escrow = .settle ∧
      ¬ ∃ l ∈ lookup, l.state = .accepted ∨ l.state = .settled then
    .dead ("에스크로를 받을 수 없다 (" ++ ((lookup.map fun l => l.state.text).getD "노드에 없음") ++ ")")
  else match settleOrCancel rule.escrow lookup with
    | .final f => closeLoop [(escrow.paymentHash, f)] (closeTodo order rule db)
    | .call f =>
      if f = .settled ∧ ¬ preimageMatches ctx.env.keys escrow then
        .retry "프리이미지가 해시와 맞지 않는다"
      else .await (.closeEscrowCall order rule escrow f)

/-- After the lookup of another invoice. -/
def closeLooked (finals : List (Hash × HoldFinal)) (inv : HoldRow) (want : DisposeAction)
    (todo : List (HoldRow × DisposeAction)) (lookup : Option HoldLookup) : LnTurn :=
  match settleOrCancel want lookup with
  | .final f => closeLoop (finals ++ [(inv.paymentHash, f)]) todo
  | .call f =>
    if f = .settled ∧ ¬ preimageMatches ctx.env.keys inv then
      .retry "프리이미지가 해시와 맞지 않는다"
    else .await (.closeCall finals inv f todo)

/-! ## Paying -/

/-- `ln.payout` up to its first await. -/
def payoutStart (orderId : OrderId) (db : LnDb) : LnTurn :=
  match getOrder orderId db with
  | none => .done (.payout .skip)
  | some order =>
    if order.disbursed then .done (.payout .skip)
    else if order.state ≠ .paid ∧ order.state ≠ .sponsorWins then .done (.payout .skip)
    else match order.sponsorInvoice.filter (· ≠ ""), order.payoutSat.filter (· ≠ 0) with
      | some bolt11, some payoutSat =>
        match readBolt11 ctx.env bolt11 with
        | none => .dead "지급처 인보이스를 읽을 수 없다"
        | some info =>
          if isPayoutAmountExact (some payoutSat) info.amountSat then
            .await (.payoutTrack order bolt11 info)
          else .dead ("금액 불일치 " ++ toString info.amountSat ++ " ≠ " ++ toString payoutSat)
      | _, _ => .dead "지급처가 없다 — FSM 불변조건 위반"

/-- After tracking: a payment that is neither made nor under way may be begun, unless the operator
has stopped it meanwhile or the invoice is about to expire. -/
def payoutTracked (order : LnOrderRow) (bolt11 : String) (info : Bolt11Info) (db : LnDb) :
    Option PayStatus → LnTurn
  | some .succeeded => .done (.payout .paid)
  | some .inFlight => .retry payoutInFlight
  | _ =>
    if isManualPayout ((getOrder order.orderId db).bind LnOrderRow.payoutError) then
      .done (.payout (.manual bolt11))
    else if info.expiresAt ≤ ctx.now + 30 then .done (.payout (.expired bolt11))
    else .await (.payoutPay order bolt11 info)

/-- After paying. -/
def payoutPaid : PayStatus → Option NodeText → LnTurn
  | .succeeded, _ => .done (.payout .paid)
  | .inFlight, _ => .retry payoutInFlight
  | .failed, some reason => .retry reason.text
  | .failed, none => .retry "결제 실패"

/-! ## Running an effect -/

/-- A run up to its first await. -/
def startRun : Effect LnEffect → LnDb → LnTurn
  | .holdCreate h, db => holdTurn (createStart h db)
  | .holdDispose h action, db => holdTurn (disposeStart h action db)
  | .own (.close orderId), db => closeStart orderId db
  | .own (.payout orderId), db => ctx.payoutStart orderId db

/-- A run goes on with an answer; a call that failed throws. -/
def resumeRun : LnAwait → LnAnswer → LnDb → LnTurn
  | .hold a, .node answer, _ => holdTurn (a.resume ctx.env.keys ctx.now answer)
  | .closeEscrowLookup order rule escrow, .node (.lookup l), db =>
    ctx.closeEscrowLooked order rule escrow l db
  | .closeEscrowCall order rule escrow final, .node .done, db =>
    closeLoop [(escrow.paymentHash, final)] (closeTodo order rule db)
  | .closeLookup finals inv want todo, .node (.lookup l), _ =>
    ctx.closeLooked finals inv want todo l
  | .closeCall finals inv final todo, .node .done, _ =>
    closeLoop (finals ++ [(inv.paymentHash, final)]) todo
  | .payoutTrack order bolt11 info, .tracked status, db =>
    ctx.payoutTracked order bolt11 info db status
  | .payoutPay _ _ _, .paid status reason, _ => payoutPaid status reason
  | _, .threw error, _ => .retry error.text
  | _, _, _ => .retry "LND"

/-! ## Recording a run -/

/-- `onDone` of `ln.payout`: a judgement about an invoice counts only while it is still the one on
record; money that has gone out is written down in any case. -/
def payoutDone (orderId : OrderId) (outcome : PayoutOutcome) (db : LnDb) : Except Abort LnDb :=
  match getOrder orderId db with
  | none => .ok db
  | some order =>
    match outcome with
    | .skip => .ok db
    | .paid => updateOrder ctx.now orderId
        (fun o => { o with disbursed := true, payoutError := none }) db
    | .manual bolt11 =>
      if order.sponsorInvoice ≠ some bolt11 then .ok (requestPayout orderId db)
      else if order.payoutError ≠ some payoutManual then
        updateOrder ctx.now orderId (fun o => { o with payoutError := some payoutManual }) db
      else .ok db
    | .expired bolt11 =>
      if order.sponsorInvoice ≠ some bolt11 then .ok (requestPayout orderId db)
      else if isManualPayout order.payoutError then .ok (requestPayout orderId db)
      else if order.payoutError = some payoutInvoiceExpired then .ok db
      else updateOrder ctx.now orderId
        (fun o => { o with payoutError := some payoutInvoiceExpired }) db

/-- `onRetry` of `ln.payout`: the operator's mark is never overwritten. -/
def payoutRetry (orderId : OrderId) (error : String) (db : LnDb) : Except Abort LnDb :=
  match getOrder orderId db with
  | none => .ok db
  | some order =>
    if isManualPayout order.payoutError then .ok db
    else if order.payoutError ≠ some error ∧ error ≠ payoutInFlight then
      updateOrder ctx.now orderId (fun o => { o with payoutError := some error }) db
    else .ok db

/-- `onDead` of `ln.payout`. -/
def payoutDead (orderId : OrderId) (error : String) (db : LnDb) : Except Abort LnDb :=
  match getOrder orderId db with
  | none => .ok db
  | some _ => updateOrder ctx.now orderId (fun o => { o with payoutError := some error }) db

/-- `onDone`. -/
def onDone : Effect LnEffect → LnResult → LnDb → Except Abort LnDb
  | .holdCreate h, .hold r, db => createDone ctx.holdHooks ctx.now h r db
  | .holdDispose h action, .hold r, db => disposeDone ctx.holdHooks ctx.now h action r db
  | .own (.close orderId), .closed finals, db => ctx.finishClose orderId finals db
  | .own (.payout orderId), .payout outcome, db => ctx.payoutDone orderId outcome db
  | _, _, db => .ok db

/-- `onRetry`. -/
def onRetry : Effect LnEffect → String → LnDb → Except Abort LnDb
  | .own (.payout orderId), error, db => ctx.payoutRetry orderId error db
  | _, _, db => .ok db

/-- `onDead`. -/
def onDead : Effect LnEffect → String → LnDb → Except Abort LnDb
  | .own (.close orderId), _, db => ctx.abandonClose orderId db
  | .own (.payout orderId), error, db => ctx.payoutDead orderId error db
  | _, _, db => .ok db

end LnCtx

end LnPay
