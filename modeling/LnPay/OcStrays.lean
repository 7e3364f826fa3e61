/-
# Money nobody asked for (`daemon/src/onchain/funding.ts`, `watcher.ts`)

The escrow address is public, so anyone may send to it.  Once an order is funded
only its pinned outpoint is looked at: two views of the address that agree on it
lead the watcher to the same action and leave the same ledger, but for the list of
strays in the private part of the order.

Ledgers are compared with that list erased (`eraseStrays`).
-/
import LnPay.OcFinality

namespace LnPay

variable {P : Type}

/-! ## The pinned outpoint in a view -/

/-- Two views of the address agree on the pinned outpoint: whether it is confirmed, how deep, and
whether it is in the mempool. -/
def AgreesOn (pinned : Outpoint) (a b : AddressFunds) : Prop :=
  ((a.confirmed.find? fun u => u.outpoint = pinned).map ChainUtxo.confirmations =
    (b.confirmed.find? fun u => u.outpoint = pinned).map ChainUtxo.confirmations) ∧
  (a.mempool.any fun u => u.outpoint = pinned) = b.mempool.any fun u => u.outpoint = pinned

/-- What is made of the pinned outpoint depends on it alone. -/
theorem AgreesOn.judged {pinned : Outpoint} {a b : AddressFunds} (h : AgreesOn pinned a b)
    (amountSat : ℚ) : judgePinnedFunding (.known a) pinned amountSat =
      judgePinnedFunding (.known b) pinned amountSat := by
  obtain ⟨hconfirmed, hmempool⟩ := h
  simp only [judgePinnedFunding]
  rw [hmempool]
  cases ha : a.confirmed.find? fun u => u.outpoint = pinned with
  | none =>
    rw [ha] at hconfirmed
    rw [Option.map_eq_none_iff.mp hconfirmed.symm]
  | some u =>
    rw [ha] at hconfirmed
    obtain ⟨v, hv, hdepth⟩ := Option.map_eq_some_iff.mp hconfirmed.symm
    rw [hv]
    simp only [hdepth]

/-- `gather`, given the funds of the address. -/
def gatherFrom (lib : BtcSigner P) (order : OnchainOrder) (funds : Query AddressFunds)
    (answers : ChainAnswers) : Except String Facts :=
  if isOnchainTerminal order.state then .ok ⟨funds, none, none⟩
  else do
    let pinned ← if (given order.fundingOutpoint).isSome then
        gatherPinnedFacts lib order funds answers
      else .ok none
    return ⟨funds, pinned,
      if order.state = .settling ∧ (given order.settlementTxid).isSome then
        some (getTxStatus answers.settlementTx answers.settlementTip)
      else none⟩

/-- The view is passed on. -/
theorem gatherFrom_funds {lib : BtcSigner P} {order : OnchainOrder} {funds : Query AddressFunds}
    {answers : ChainAnswers} {facts : Facts} (h : gatherFrom lib order funds answers = .ok facts) :
    facts.funds = funds := by
  unfold gatherFrom at h
  split at h
  · rw [← Except.ok.inj h]
  · dsimp only at h
    split at h
    · obtain ⟨pinned, -, h⟩ := Except.bind_eq_ok_iff.mp h
      rw [← Except.ok.inj h]
    · rw [← Except.ok.inj h]

/-- The views agree on the order's outpoint, if it has one. -/
def AgreesFor (order : OnchainOrder) (a b : AddressFunds) : Prop :=
  ∀ pinned, parseOutpoint order.fundingOutpoint = some pinned → AgreesOn pinned a b

theorem AgreesFor.pinnedFacts {order : OnchainOrder} {a b : AddressFunds} (h : AgreesFor order a b)
    (lib : BtcSigner P) (answers : ChainAnswers) :
    gatherPinnedFacts lib order (.known a) answers = gatherPinnedFacts lib order (.known b) answers := by
  unfold gatherPinnedFacts
  cases hp : parseOutpoint order.fundingOutpoint with
  | none => rfl
  | some pinned => simp only [(h pinned hp).judged order.amountSat]

/-- What is gathered differs in the view only. -/
theorem AgreesFor.gathered {order : OnchainOrder} {a b : AddressFunds} (h : AgreesFor order a b)
    (lib : BtcSigner P) (answers : ChainAnswers) :
    gatherFrom lib order (.known b) answers =
      (gatherFrom lib order (.known a) answers).map fun f => { f with funds := .known b } := by
  unfold gatherFrom
  rw [h.pinnedFacts]
  by_cases hterm : isOnchainTerminal order.state = true
  · rw [if_pos hterm, if_pos hterm]
    rfl
  · rw [if_neg hterm, if_neg hterm]
    by_cases hout : (given order.fundingOutpoint).isSome = true
    · simp only [hout, if_true]
      cases gatherPinnedFacts lib order (.known b) answers with
      | error e => split <;> rfl
      | ok pinned => split <;> rfl
    · simp only [hout, Bool.false_eq_true, if_false]
      rfl

/-! ## The decision -/

/-- The states in which money is at stake. -/
def OnchainState.atStake (s : OnchainState) : Bool :=
  s ∈ [.funded, .presigned, .remitted, .disputed, .refunding, .settling]

/-- The decision does not look at the funds. -/
theorem decide_funds {order : OnchainOrder} (h : order.state.atStake = true)
    (ctx : OnchainWatchContext) (funds : Query AddressFunds) :
    decideOnchainAction order { ctx with funds := funds } = decideOnchainAction order ctx := by
  unfold decideOnchainAction
  cases hs : order.state <;> rw [hs] at h <;> first | rfl | exact absurd h (by decide)

example : OnchainState.bonded.atStake = false := by decide +kernel

/-! ## Ledgers without the strays of an order -/

/-- The ledger with the strays of the order forgotten. -/
def eraseStrays (orderId : OrderId) (db : OcDb) : OcDb :=
  updateOcMeta orderId (fun m => { m with strays := [] }) db

section Erase

variable {orderId : OrderId} {db db' : OcDb}

/-- Tables with the same rows are the same. -/
theorem eq_of_rows {Key Row : Type} {key : Row → Key} {t t' : KeyedTable key}
    (h : t.rows = t'.rows) : t = t' := by
  rcases t with ⟨rows, nodup⟩
  rcases t' with ⟨rows', nodup'⟩
  cases h
  rfl

/-- Two changes of a row are one. -/
theorem updateOcMeta_updateOcMeta (f g : OcMeta → OcMeta) (db : OcDb) :
    updateOcMeta orderId g (updateOcMeta orderId f db) =
      updateOcMeta orderId (fun m => g (f m)) db := by
  have hrows : ((db.track.orders.update orderId (fun r => { r with ocMeta := f r.ocMeta })
      fun _ => rfl).update orderId (fun r => { r with ocMeta := g r.ocMeta }) fun _ => rfl) =
      db.track.orders.update orderId (fun r => { r with ocMeta := g (f r.ocMeta) })
        fun _ => rfl := by
    apply eq_of_rows
    show (db.track.orders.rows.map _).map _ = db.track.orders.rows.map _
    rw [List.map_map]
    apply List.map_congr_left
    intro r _
    by_cases hr : r.orderId = orderId
    · have hr' : OcRow.orderId { r with ocMeta := f r.ocMeta } = orderId := hr
      rw [Function.comp_apply, if_pos hr, if_pos hr', if_pos hr]
    · rw [Function.comp_apply, if_neg hr, if_neg hr, if_neg hr]
  show setOrders _ _ = setOrders _ _
  rw [← hrows]
  rfl

/-- Noting strays is forgotten with them. -/
theorem eraseStrays_noteStrays {row : OcRow} (strays : List ChainUtxo) (db : OcDb) :
    eraseStrays row.order.orderId (noteStrays row strays db) = eraseStrays row.order.orderId db := by
  unfold noteStrays
  dsimp only
  split
  · rfl
  · rw [eraseStrays, updateOcMeta_updateOcMeta]
    rfl

/-- The row of the order, as far as it is not erased. -/
theorem getOc_eraseStrays (orderId : OrderId) (db : OcDb) :
    getOc orderId (eraseStrays orderId db) =
      (getOc orderId db).map fun r => { r with ocMeta := { r.ocMeta with strays := [] } } :=
  KeyedTable.find_update_self db.track.orders orderId
    (fun r => { r with ocMeta := { r.ocMeta with strays := [] } }) fun _ => rfl

/-- Whatever else is written of the private part, and whatever effect is asked for. -/
theorem eraseStrays_updateOcMeta {f : OcMeta → OcMeta}
    (hf : ∀ m, ({ f m with strays := [] } : OcMeta) = { f { m with strays := [] } with strays := [] })
    (h : eraseStrays orderId db = eraseStrays orderId db') :
    eraseStrays orderId (updateOcMeta orderId f db) =
      eraseStrays orderId (updateOcMeta orderId f db') := by
  have hthrough : ∀ db, eraseStrays orderId (updateOcMeta orderId f db) =
      eraseStrays orderId (updateOcMeta orderId f (eraseStrays orderId db)) := fun db => by
    rw [eraseStrays, eraseStrays, updateOcMeta_updateOcMeta, eraseStrays, updateOcMeta_updateOcMeta,
      updateOcMeta_updateOcMeta]
    congr 1
    funext m
    exact hf m
  rw [hthrough db, hthrough db', h]

theorem eraseStrays_enqueue (e : Effect OcEffect) (db : OcDb) :
    eraseStrays orderId (db.enqueue e) = (eraseStrays orderId db).enqueue e := by
  unfold Db.enqueue
  have hpending : (eraseStrays orderId db).hasPending e = db.hasPending e := rfl
  rw [hpending]
  split
  · rfl
  · rfl

end Erase

/-! ## Asking for a signature again -/

/-- Two outcomes that differ in the strays of the order at most. -/
def Alike (orderId : OrderId) : Except Abort OcDb → Except Abort OcDb → Prop
  | .ok db, .ok db' => eraseStrays orderId db = eraseStrays orderId db'
  | .error e, .error e' => e = e'
  | _, _ => False

/-- The same beginning, and ends that are alike. -/
theorem Alike.bind {orderId : OrderId} {r : Except Abort OcDb} {f g : OcDb → Except Abort OcDb}
    (h : ∀ db, Alike orderId (f db) (g db)) : Alike orderId (r >>= f) (r >>= g) := by
  cases r with
  | error e => exact rfl
  | ok db => exact h db

namespace OcCtx

variable (ctx : OcCtx P) {orderId : OrderId} {db db' : OcDb}

/-- The request for a signature does not look at the strays. -/
theorem alike_requestSettlementSignature (h : eraseStrays orderId db = eraseStrays orderId db') :
    Alike orderId ((ctx.requestSettlementSignature orderId db).map Prod.snd)
      ((ctx.requestSettlementSignature orderId db').map Prod.snd) := by
  have hrow : (getOc orderId db).map (fun r => { r with ocMeta := { r.ocMeta with strays := [] } }) =
      (getOc orderId db').map fun r => { r with ocMeta := { r.ocMeta with strays := [] } } := by
    rw [← getOc_eraseStrays, ← getOc_eraseStrays, h]
  unfold requestSettlementSignature
  cases hdb : getOc orderId db with
  | none =>
    rw [hdb] at hrow
    rw [Option.map_eq_none_iff.mp hrow.symm]
    exact h
  | some r =>
    rw [hdb] at hrow
    obtain ⟨r', hdb', heq⟩ := Option.map_eq_some_iff.mp hrow.symm
    rw [hdb']
    rcases r with ⟨o, m, version⟩
    rcases r' with ⟨o', m', version'⟩
    obtain ⟨rfl, hmeta, rfl⟩ := OcRow.mk.inj heq
    have hparams : ∀ kind fee, settlementParamsFor ctx.env o' m' kind fee =
        settlementParamsFor ctx.env o' m kind fee := fun kind fee =>
      show settlementParamsFor ctx.env o' { m' with strays := [] } kind fee =
        settlementParamsFor ctx.env o' { m with strays := [] } kind fee by rw [hmeta]
    simp only [Option.bind_some]
    cases o'.settlementKind with
    | none => exact h
    | some kind =>
      simp only [Option.map_some, hparams]
      by_cases hrelease : kind = .release
      · rw [if_pos hrelease, if_pos hrelease]
        exact h
      · rw [if_neg hrelease, if_neg hrelease]
        generalize settlementParamsFor ctx.env o' m kind o'.settlementFeeSat = params
        generalize given (if kind = .sponsorWin then o'.sponsorPubkey else some o'.customerPubkey) =
          recipient
        rcases params with _ | params
        · exact h
        · rcases recipient with _ | recipient
          · exact h
          · dsimp only
            rcases buildSettlementTx ctx.env.lib params with e | tx
            · exact rfl
            · -- the effect, and the time it was asked for
              refine eraseStrays_updateOcMeta (fun m => rfl) ?_
              show eraseStrays orderId (Db.enqueue _ _) = eraseStrays orderId (Db.enqueue _ _)
              rw [eraseStrays_enqueue, eraseStrays_enqueue, h]

theorem alike_maybeResendSignature {row : OcRow} (hid : row.order.orderId = orderId)
    (h : eraseStrays orderId db = eraseStrays orderId db') :
    Alike orderId (ctx.maybeResendSignature row db) (ctx.maybeResendSignature row db') := by
  unfold maybeResendSignature
  split
  · exact h
  · split
    · exact h
    · rw [hid]
      exact ctx.alike_requestSettlementSignature h

/-- After the action only the strays that are noted differ. -/
theorem alike_afterAction (action : OnchainAction) (facts : Facts) (a b : AddressFunds) (db : OcDb) :
    Alike orderId (ctx.afterAction orderId action { facts with funds := .known a } db)
      (ctx.afterAction orderId action { facts with funds := .known b } db) := by
  unfold afterAction
  cases hfresh : getOc orderId db with
  | none => exact rfl
  | some fresh =>
    obtain rfl := orderId_of_getOc hfresh
    apply ctx.alike_maybeResendSignature rfl
    dsimp only
    split
    · rw [eraseStrays_noteStrays, eraseStrays_noteStrays]
    · rfl

end OcCtx

/-! ## The watcher's turn -/

/-- What is left of the row of an order. -/
theorem Alike.row {orderId : OrderId} {db db' : OcDb} (h : Alike orderId (.ok db) (.ok db')) :
    (getOc orderId db).map (fun r => (r.order, r.version)) =
      (getOc orderId db').map fun r => (r.order, r.version) := by
  have hrow := congrArg (fun db => (getOc orderId db).map fun r => (r.order, r.version))
    (show eraseStrays orderId db = eraseStrays orderId db' from h)
  simp only [getOc_eraseStrays, Option.map_map] at hrow
  exact hrow

/-- **Money nobody asked for cannot steer a funded trade.**  Two views of the address that agree on
the pinned outpoint, all other answers being the same: the same is gathered besides the view, the
watcher takes the same action, and the ledgers that are left agree in all but the strays that are
noted, the order and its version included. -/
theorem strays_cannot_steer (ctx : OcCtx P) (startedAt : ℤ) (db : OcDb) (row : OcRow)
    (hrow : getOc row.order.orderId db = some row) (hstate : row.order.state.atStake = true)
    (a b : AddressFunds) (hagree : AgreesFor row.order a b) (answers : ChainAnswers) :
    gatherFrom ctx.env.lib row.order (.known b) answers =
      (gatherFrom ctx.env.lib row.order (.known a) answers).map
        (fun facts => { facts with funds := .known b }) ∧
    ∀ facts, gatherFrom ctx.env.lib row.order (.known a) answers = .ok facts → ∀ version,
      decideOnchainAction row.order (ctx.watchContext row facts db) =
        decideOnchainAction row.order (ctx.watchContext row { facts with funds := .known b } db) ∧
      Alike row.order.orderId (ctx.applyFacts startedAt row.order.orderId version facts db)
        (ctx.applyFacts startedAt row.order.orderId version { facts with funds := .known b } db) ∧
      ∀ db₁ db₂, ctx.applyFacts startedAt row.order.orderId version facts db = .ok db₁ →
        ctx.applyFacts startedAt row.order.orderId version { facts with funds := .known b } db =
          .ok db₂ →
        (getOc row.order.orderId db₁).map (fun r => (r.order, r.version)) =
          (getOc row.order.orderId db₂).map fun r => (r.order, r.version) := by
  refine ⟨hagree.gathered ctx.env.lib answers, fun facts hfacts version => ?_⟩
  have hview : facts = { facts with funds := .known a } := by
    rw [← gatherFrom_funds hfacts]
  have hterm : ¬isOnchainTerminal row.order.state = true := by
    revert hstate
    cases row.order.state <;> decide
  have haction : decideOnchainAction row.order (ctx.watchContext row facts db) =
      decideOnchainAction row.order (ctx.watchContext row { facts with funds := .known b } db) :=
    (decide_funds hstate (ctx.watchContext row facts db) (.known b)).symm
  have hafter : ∀ action db', Alike row.order.orderId
      (ctx.afterAction row.order.orderId action facts db')
      (ctx.afterAction row.order.orderId action { facts with funds := .known b } db') := by
    intro action db'
    have halike : Alike row.order.orderId
        (ctx.afterAction row.order.orderId action { facts with funds := .known a } db')
        (ctx.afterAction row.order.orderId action { facts with funds := .known b } db') :=
      ctx.alike_afterAction action facts a b db'
    rw [← hview] at halike
    exact halike
  have halike : Alike row.order.orderId
      (ctx.applyFacts startedAt row.order.orderId version facts db)
      (ctx.applyFacts startedAt row.order.orderId version { facts with funds := .known b } db) := by
    unfold OcCtx.applyFacts
    rw [hrow]
    cases hcurrent : (some row).filter fun row => decide (row.version = version) with
    | none => exact rfl
    | some row' =>
      obtain rfl : row = row' := Option.some.inj (Option.filter_eq_some_iff.mp hcurrent).1
      dsimp only
      rw [if_neg hterm, if_neg hterm, ← haction]
      generalize decideOnchainAction row.order (ctx.watchContext row facts db) = action
      by_cases hnow : ocCatchupWarmupSec ≤ ctx.now - startedAt ∨ ¬action.byClock = true
      · rw [if_pos hnow, if_pos hnow]
        exact Alike.bind (hafter action)
      · rw [if_neg hnow, if_neg hnow]
        exact Alike.bind (hafter action)
  refine ⟨haction, halike, fun db₁ db₂ h₁ h₂ => ?_⟩
  rw [h₁, h₂] at halike
  exact halike.row

/-! ### Dust on a funded trade -/

/-- The address as it should be, and with dust. -/
def cleanView : AddressFunds := ⟨[⟨tradeTxid, 1, 50000, 2⟩], []⟩

def dustView : AddressFunds :=
  ⟨[⟨"dust", 1, 546, 9⟩, ⟨tradeTxid, 1, 50000, 2⟩], [⟨"dust", 2, 546, 0⟩]⟩

/-- No other request is made. -/
def noAnswers : ChainAnswers :=
  ⟨.unknown "", .unknown "", .unknown "", .unknown "", .unknown "", .unknown "", .unknown ""⟩

/-- The daemon when it judges the funded trade. -/
def dustCtx : OcCtx String := ⟨tradeEnv, 200, none⟩

/-- The trade is funded, and both views can be acted on. -/
theorem dust_run : ((ocSystem tradeEnv).run (OcWorld.init 0) tradeInputs).any (fun w =>
    (getOc "trade-1" w.db).any fun row => decide (row.order.orderId = "trade-1" ∧
      row.order.state = .funded ∧ parseOutpoint row.order.fundingOutpoint = some ⟨tradeTxid, 1⟩) &&
      (gatherFrom tradeEnv.lib row.order (.known cleanView) noAnswers).toOption.any fun facts =>
        (dustCtx.applyFacts 0 "trade-1" row.version facts w.db).toOption.isSome &&
        (dustCtx.applyFacts 0 "trade-1" row.version { facts with funds := .known dustView }
          w.db).toOption.isSome) = true := by
  unfold dustCtx tradeEnv tradeLib sampleLib
  rw [samplePayment_eq, sampleSingle_eq]
  decide +kernel

/-- The trade stays as it is, whatever is sent to its address. -/
theorem strays_cannot_steer_dust : ∃ w row facts db₁ db₂,
    (ocSystem tradeEnv).run (OcWorld.init 0) tradeInputs = some w ∧
    getOc "trade-1" w.db = some row ∧ row.order.state = .funded ∧
    gatherFrom tradeEnv.lib row.order (.known cleanView) noAnswers = .ok facts ∧
    decideOnchainAction row.order (dustCtx.watchContext row facts w.db) =
      decideOnchainAction row.order
        (dustCtx.watchContext row { facts with funds := .known dustView } w.db) ∧
    dustCtx.applyFacts 0 "trade-1" row.version facts w.db = .ok db₁ ∧
    dustCtx.applyFacts 0 "trade-1" row.version { facts with funds := .known dustView } w.db = .ok db₂ ∧
    (getOc "trade-1" db₁).map (fun r => (r.order, r.version)) =
      (getOc "trade-1" db₂).map fun r => (r.order, r.version) := by
  have hrun := dust_run
  simp only [Option.any_eq_true, Bool.and_eq_true, decide_eq_true_eq, Option.isSome_iff_exists] at hrun
  obtain ⟨w, hw, row, hr, ⟨hid, hs, hparse⟩, facts, hgather, ⟨db₁, h₁⟩, db₂, h₂⟩ := hrun
  have hfacts := ok_of_toOption hgather
  have hagree : AgreesFor row.order cleanView dustView := by
    intro pinned hp
    obtain rfl := Option.some.inj (hparse.symm.trans hp)
    unfold AgreesOn
    decide +kernel
  have hfound : getOc row.order.orderId w.db = some row := by rw [hid, hr]
  obtain ⟨-, hsteer⟩ := strays_cannot_steer dustCtx 0 w.db row hfound (by rw [hs]; rfl) cleanView
    dustView hagree noAnswers
  obtain ⟨haction, -, hleft⟩ := hsteer facts hfacts row.version
  rw [hid] at hleft
  have hclean := ok_of_toOption h₁
  have hdust := ok_of_toOption h₂
  exact ⟨w, row, facts, db₁, db₂, hw, hr, hs, hfacts, haction, hclean, hdust,
    hleft db₁ db₂ hclean hdust⟩

end LnPay
