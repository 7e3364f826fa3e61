/-
# What an on-chain transaction can do to an order

Every transaction of the on-chain track changes at most one order, and changes it
at most once.  Besides it may write the daemon's notes of any order: the strays,
the rescues, and the time of the last signature request.  The rest of a row is
its `core`.

`OcChange` lists the changes of an order, with what the source has checked before
each; `OcNext` is what becomes of all cores.  It is shown for each function of the
source once; every invariant of the track is then proved from the list.
-/
import LnPay.HoldLaws
import LnPay.OcWatcher

namespace LnPay

/-! ## The core of a row -/

/-- The private part without the daemon's notes. -/
def OcMeta.record (m : OcMeta) : OcMeta :=
  { m with lastSignRequestAt := none, strays := [], rescues := [] }

/-- A row without the daemon's notes. -/
def OcRow.core (r : OcRow) : OcRow := { r with ocMeta := r.ocMeta.record }

/-- A part of the private part that is no note is a part of the record. -/
theorem OcMeta.of_record {α : Type} {m m' : OcMeta} (f : OcMeta → α) (hf : ∀ m, f m.record = f m)
    (h : m'.record = m.record) : f m' = f m := by
  rw [← hf m', h, hf]

/-- The row of an order without the daemon's notes. -/
def coreOf (orderId : OrderId) (db : OcDb) : Option OcRow := (getOc orderId db).map OcRow.core

theorem coreOf_eq_some {orderId : OrderId} {db : OcDb} {r : OcRow} (h : getOc orderId db = some r) :
    coreOf orderId db = some r.core := by
  rw [coreOf, h, Option.map_some]

/-- The row behind a core. -/
theorem getOc_of_core {orderId : OrderId} {db : OcDb} {c : OcRow} (h : coreOf orderId db = some c) :
    ∃ r, getOc orderId db = some r ∧ r.core = c :=
  Option.map_eq_some_iff.mp h

/-- A row is found under its own id. -/
theorem orderId_of_getOc {orderId : OrderId} {db : OcDb} {r : OcRow}
    (h : getOc orderId db = some r) : r.order.orderId = orderId := by
  have hkey : r.orderId = orderId := KeyedTable.key_of_find h
  exact hkey

theorem getOc_congr {db db' : OcDb} (h : db'.track.orders = db.track.orders) (orderId : OrderId) :
    getOc orderId db' = getOc orderId db := by
  rw [getOc, getOc, h]

/-! ## Turns -/

/-- The requests that are taken before a deadline only. -/
inductive OcTurn
  | presig | account | remit
  deriving DecidableEq, Repr

/-- The action of a turn. -/
def OcTurn.action : OcTurn → OcAction
  | .presig => .presig
  | .account => .accountInfo
  | .remit => .remitRequest

/-- The deadline of a turn. -/
def OnchainOrder.turnDeadline (o : OnchainOrder) : OcTurn → Option ℤ
  | .presig => o.presignDeadlineOf
  | .account => o.accountDeadlineOf
  | .remit => o.krwDeadlineOf

/-- It is the sender's turn. -/
def OnchainOrder.awaits (o : OnchainOrder) (sender : Pubkey) : OcTurn → Prop
  | .presig => some sender = o.sponsorPubkey ∧ o.state = .funded ∧ o.settlementKind = none
  | .account => sender = o.customerPubkey ∧ o.state = .presigned ∧ o.settlementKind = none ∧
      nonzero o.accountSentAt = none
  | .remit => some sender = o.sponsorPubkey ∧ o.state = .presigned ∧ o.settlementKind = none ∧
      nonzero o.accountSentAt ≠ none

/-! ## Changes -/

/-- What the changes of a transaction are relative to: the time, the actions the watcher has decided
on for an order, whose cosignature has come in and which transaction it completes, whose turn is
taken, which account disputes are resolved, which settlements can be built, who claims, which rescues
are asked for, which transactions a cosignature has finished, and whether a broadcast has come to its
end. -/
structure OcCause where
  now : ℤ
  acts : OnchainOrder → OnchainAction → Prop
  takes : OnchainOrder → OcTurn → Prop
  cosigns : OnchainOrder → SettlementKind → Prop
  completes : OnchainOrder → OcMeta → SettlementKind → String → String → Prop
  resolves : OnchainOrder → Prop
  builds : OnchainOrder → OcMeta → Prop
  claims : Pubkey → Prop
  asks : OrderId → String → Prop
  finalizes : String → Prop
  marks : Prop

/-- The settlement that has been decided on can be built. -/
def Buildable {P : Type} (env : OcEnv P) (o : OnchainOrder) (m : OcMeta) : Prop :=
  ∀ kind, o.settlementKind = some kind → kind ≠ .release → ∀ params,
    settlementParamsFor env o m kind o.settlementFeeSat = some params →
    ∃ tx, buildSettlementTx env.lib params = .ok tx

/-- A cosignature completes the settlement of an order: the transaction on record, with the signature
that has been checked against it. -/
def Completes {P : Type} (env : OcEnv P) (event : OcEvent) (o : OnchainOrder) (m : OcMeta)
    (kind : SettlementKind) (txid rawHex : String) : Prop :=
  ∃ expected signerXonly psbt sig leafScript,
    settlementParamsFor env o m kind o.settlementFeeSat = some expected ∧
    given (if awaitingSponsor kind then o.sponsorXonly else o.customerXonly) = some signerXonly ∧
    event.psbt = some psbt ∧
    verifyPresignature env.lib psbt expected signerXonly = .ok (sig, leafScript) ∧
    OcCtx.completeSettlement ⟨env, 0, none⟩ ⟨o, m, 0⟩ (kind = .release) expected signerXonly sig
      leafScript = .ok (some (rawHex, txid))

/-- The changes of an order and of its private part, with what has been checked before each. -/
inductive OcChange (c : OcCause) (o : OnchainOrder) (m : OcMeta) : OnchainOrder → OcMeta → Prop
  | bond (sponsor : Pubkey) (info : SponsorClaimInfo) (adminXonly address : String)
      (timelockBlocks : ℚ) (hash : Option Hash) (expiresAt : Option ℤ) (hs : o.state = .listed)
      (ha : address ≠ "")
      (hx : (given o.customerXonly).isSome ∧ info.sponsorXonly ≠ "" ∧ adminXonly ≠ "" ∧
        timelockBlocks ≠ 0) (hclaim : c.claims sponsor) :
      OcChange c o m { o with
          state := .bonded
          sponsorPubkey := some sponsor
          sponsorXonly := some info.sponsorXonly
          adminXonly := some adminXonly
          escrowAddress := some address
          timelockBlocks := some timelockBlocks
          fundingDeadline := some (c.now + fundingWindowSec)
          sponsorDepositHash := hash }
        { m with
          payoutAddress := some info.payoutAddress
          feerateSatPerVb := some info.feerateSatPerVb
          sponsorBondExpiresAt := expiresAt }
  | fund (outpoint : Outpoint) (confirmations : ℕ) (priceKrw : ℤ) (releaseFeeSat : ℚ)
      (h : c.acts o (.fund outpoint confirmations priceKrw))
      (hpaid : 0 < o.amountSat - releaseFeeSat) :
      OcChange c o m { o with
          state := .funded
          fundingOutpoint := some (formatOutpoint outpoint)
          fundingConfs := some confirmations
          fundedAt := some c.now
          presignDeadline := some (c.now + presignWindowSec)
          priceKrw := some priceKrw
          payoutSat := some (o.amountSat - releaseFeeSat)
          releaseFeeSat := some releaseFeeSat } m
  | decide (kind : SettlementKind) (feeSat : ℚ) (fold : Option (Outpoint × ℕ)) (o' : OnchainOrder)
      (h : OcCtx.mayDecide kind fold.isSome o = true) (ho : o' = { o with
          settlementKind := some kind
          settlementFeeSat := some feeSat
          decidedAt := some c.now
          state := if OcCtx.isRuling kind then o.state else .refunding
          fundingOutpoint := (fold.map fun f => formatOutpoint f.1).or o.fundingOutpoint
          fundingConfs := (fold.map (·.2)).or o.fundingConfs })
      (hb : c.builds o' m) :
      OcChange c o m o' m
  | presig (psbt : String) (hs : o.state = .funded) (hk : o.settlementKind = none)
      (ht : c.takes o .presig) :
      OcChange c o m { o with
          state := .presigned
          presignedAt := some c.now
          accountDeadline := some (c.now + accountWindowSec) }
        { m with presigPsbt := some psbt }
  | account (commitment : Option String) (hs : o.state = .presigned) (hk : o.settlementKind = none)
      (ha : nonzero o.accountSentAt = none) (ht : c.takes o .account) :
      OcChange c o m { o with
          accountSentAt := some c.now
          krwDeadline := some (c.now + krwWindowSec) }
        { m with accountCommitment := commitment }
  | remit (hs : o.state = .presigned) (hk : o.settlementKind = none) (ht : c.takes o .remit) :
      OcChange c o m { o with
          state := .remitted
          remittedAt := some c.now
          cosignDeadline := some (c.now + cosignWindowSec) } m
  | dispute (hs : o.state = .remitted ∨ c.acts o .dispute) :
      OcChange c o m { o with state := .disputed, disputedAt := some c.now } m
  | objection (hs : o.state = .presigned) (hk : o.settlementKind = none) :
      OcChange c o m { o with accountDisputedAt := some c.now } m
  | cancel (hs : o.state = .listed ∨ c.acts o .cancel) :
      OcChange c o m { o with state := .cancelled } m
  | reorg (h : c.acts o .reorg) :
      OcChange c o m { o with
          state := .bonded
          fundingDeadline := some (c.now + fundingWindowSec)
          fundingOutpoint := none
          fundingConfs := none
          fundedAt := none
          presignDeadline := none
          priceKrw := none
          payoutSat := none
          releaseFeeSat := none
          presignedAt := none
          accountDeadline := none
          accountSentAt := none
          krwDeadline := none
          accountDisputedAt := none } m
  | cosign (kind : SettlementKind) (txid rawHex : String)
      (hk : kind = .release ∨ o.settlementKind = some kind)
      (hs : canActOnSignRequest o.state (signPurposeFor kind) o.settlementKind = true)
      (hc : c.cosigns o kind) (ht : c.completes o m kind txid rawHex) :
      OcChange c o m { o with
          state := .settling
          settlementKind := some kind
          settlementTxid := some txid
          settlingAt := some c.now }
        { m with outbox := some ⟨txid, rawHex, kind⟩ }
  | adopt (txid : String) (leaf : Option EscrowLeafName) (kind : SettlementKind)
      (settlingAt : Option ℤ) (hk : OcCtx.adoptedKind o leaf = some kind)
      (h : c.acts o (.observeSpend txid leaf)) :
      OcChange c o m { o with
          state := .settling
          settlementKind := some kind
          settlementTxid := some txid
          settlingAt := settlingAt } m
  | sweep (txid : String) (h : c.acts o (.observeSpend txid (some .timelock))) :
      OcChange c o m { o with state := .swept, settlementTxid := some txid } m
  | confirmed (kind : SettlementKind) (hk : o.settlementKind = some kind) (h : c.acts o .confirmed) :
      OcChange c o m { o with state := kind.terminal } m
  | resolve (kind : SettlementKind) (hk : o.settlementKind = some .refundAccountDisputed)
      (hkind : kind = .refundCustomerLate ∨ kind = .refundSponsorTimeout)
      (hs : o.state = .refunding ∨ o.state = .settling ∨ o.state = .refunded)
      (h : c.resolves o) :
      OcChange c o m { o with settlementKind := some kind } m

/-- Nothing of a trade is on record. -/
structure OnchainOrder.Blank (o : OnchainOrder) : Prop where
  price : o.priceKrw = none ∧ o.payoutSat = none ∧ o.releaseFeeSat = none
  deadlines : o.presignDeadline = none ∧ o.accountDeadline = none
  times : o.fundedAt = none ∧ o.presignedAt = none ∧ o.remittedAt = none ∧ o.accountDisputedAt = none
  settlement : o.settlementTxid = none

/-- What becomes of one core. -/
inductive RowNext (c : OcCause) : Option OcRow → Option OcRow → Prop
  | same (r : Option OcRow) : RowNext c r r
  | listed (r : OcRow) (hs : r.order.state = .listed) (hk : r.order.settlementKind = none)
      (hf : r.order.fundingOutpoint = none) (ho : r.ocMeta.outbox = none) (hv : r.version = 1)
      (ha : r.order.accountSentAt = none ∧ r.order.krwDeadline = none) (hb : r.order.Blank) :
      RowNext c none (some r)
  | changed (r : OcRow) (o' : OnchainOrder) (m' : OcMeta)
      (h : OcChange c r.order r.ocMeta o' m')
      (hlegal : o'.state = r.order.state ∨ canOnchainTransition r.order.state o'.state = true) :
      RowNext c (some r) (some ⟨r.order.restamp o' c.now, m', r.version + 1⟩)

/-! ## What is sent out -/

/-- The transactions that are sent out, in the private part. -/
def OcMeta.sends (m : OcMeta) : Option Outbox × List (String × OcRescue) := (m.outbox, m.rescues)

/-- A broadcast of an order is pending. -/
def Broadcasting (db : OcDb) (id : OrderId) (txid : String) (rescueKey : Option String) : Prop :=
  .own (.broadcast id txid rescueKey) ∈ db.effects

/-- No transaction that is sent out has been written, and no broadcast has been asked for. -/
structure Kept (db db' : OcDb) : Prop where
  rows : ∀ id r, getOc id db = some r → ∃ r', getOc id db' = some r' ∧
    r'.ocMeta.sends = r.ocMeta.sends
  queued : ∀ id txid key, Broadcasting db' id txid key → Broadcasting db id txid key

/-- The private part of one order has been written, and of its broadcasts at most these are new. -/
structure Written (db db' : OcDb) (id : OrderId) (patch : OcMeta → OcMeta)
    (new : List (String × Option String)) : Prop where
  rows : ∀ id' r, getOc id' db = some r → ∃ r', getOc id' db' = some r' ∧
    r'.ocMeta.sends = (if id' = id then patch r.ocMeta else r.ocMeta).sends
  queued : ∀ id' txid key, Broadcasting db' id' txid key →
    Broadcasting db id' txid key ∨ id' = id ∧ (txid, key) ∈ new

theorem formatOutpoint_ne (p : Outpoint) : formatOutpoint p ≠ "" := by
  simp [formatOutpoint]

/-- What becomes of the transactions that are sent out. -/
inductive Sends (c : OcCause) (db db' : OcDb) : Prop
  | kept (h : Kept db db')
  | settled (r : OcRow) (kind : SettlementKind) (txid rawHex : String)
      (hr : getOc r.order.orderId db = some r)
      (hs : canActOnSignRequest r.order.state (signPurposeFor kind) r.order.settlementKind = true)
      (hraw : c.finalizes rawHex)
      (h : Written db db' r.order.orderId (fun m => { m with outbox := some ⟨txid, rawHex, kind⟩ })
        [(txid, none)])
  | again (r : OcRow) (o : Outbox) (hr : getOc r.order.orderId db = some r)
      (ho : r.ocMeta.outbox = some o) (h : Written db db' r.order.orderId id [(o.txid, none)])
  | asked (id : OrderId) (key : String) (rescue : OcRescue) (hc : c.asks id key)
      (h : Written db db' id (OcCtx.setRescue key rescue) [])
  | signed (r : OcRow) (key txid rawHex : String) (rescue : OcRescue)
      (hr : getOc r.order.orderId db = some r) (hres : OcCtx.rescueOf key r.ocMeta = some rescue)
      (hkey : key ≠ "") (hraw : c.finalizes rawHex)
      (h : Written db db' r.order.orderId (OcCtx.setRescue key { rescue with rawHex := some rawHex })
        [(txid, some key)])
  | marked (r : OcRow) (key txid : String) (rescue : OcRescue)
      (hr : getOc r.order.orderId db = some r) (hres : OcCtx.rescueOf key r.ocMeta = some rescue)
      (hm : c.marks)
      (h : Written db db' r.order.orderId (OcCtx.setRescue key { rescue with broadcastTxid := some txid }) [])

/-- What becomes of all cores, and of what is sent out. -/
structure OcNext (c : OcCause) (db db' : OcDb) : Prop where
  rows : ∀ orderId, RowNext c (coreOf orderId db) (coreOf orderId db')
  sends : Sends c db db'

/-- Nothing but notes has been written. -/
structure Quiet (db db' : OcDb) : Prop where
  cores : ∀ orderId, coreOf orderId db' = coreOf orderId db
  kept : Kept db db'

theorem Kept.refl (db : OcDb) : Kept db db := ⟨fun _ r hr => ⟨r, hr, rfl⟩, fun _ _ _ h => h⟩

theorem Kept.trans {a b d : OcDb} (h : Kept a b) (h' : Kept b d) : Kept a d where
  rows id r hr := by
    obtain ⟨r₁, hr₁, hs₁⟩ := h.rows id r hr
    obtain ⟨r₂, hr₂, hs₂⟩ := h'.rows id r₁ hr₁
    exact ⟨r₂, hr₂, hs₂.trans hs₁⟩
  queued id txid key hb := h.queued id txid key (h'.queued id txid key hb)

theorem Kept.of_orders {db db' : OcDb} (h : db'.track.orders = db.track.orders)
    (hq : ∀ id txid key, Broadcasting db' id txid key → Broadcasting db id txid key) : Kept db db' :=
  ⟨fun id r hr => ⟨r, by rw [getOc_congr h, hr], rfl⟩, hq⟩

theorem Written.kept {a b d : OcDb} {id : OrderId} {patch : OcMeta → OcMeta}
    {new : List (String × Option String)} (h : Written a b id patch new) (h' : Kept b d) :
    Written a d id patch new where
  rows id' r hr := by
    obtain ⟨r₁, hr₁, hs₁⟩ := h.rows id' r hr
    obtain ⟨r₂, hr₂, hs₂⟩ := h'.rows id' r₁ hr₁
    exact ⟨r₂, hr₂, hs₂.trans hs₁⟩
  queued id' txid key hb := h.queued id' txid key (h'.queued id' txid key hb)

theorem cores_requestBroadcast (id orderId : OrderId) (txid : String) (key : Option String)
    (db : OcDb) : coreOf id (OcCtx.requestBroadcast orderId txid key db) = coreOf id db := by
  rw [coreOf, OcCtx.requestBroadcast, getOc, Db.enqueue_track, ← getOc, ← coreOf]

/-- A broadcast is asked for after the private part has been written. -/
theorem Written.broadcast {a b : OcDb} {id : OrderId} {patch : OcMeta → OcMeta} {txid : String}
    {key : Option String} (h : Written a b id patch []) :
    Written a (OcCtx.requestBroadcast id txid key b) id patch [(txid, key)] where
  rows id' r hr := by
    obtain ⟨r', hr', hs⟩ := h.rows id' r hr
    refine ⟨r', ?_, hs⟩
    rw [OcCtx.requestBroadcast, getOc, Db.enqueue_track]
    exact hr'
  queued id' txid' key' hb := by
    obtain hb | hb := Db.mem_enqueue hb
    · obtain hb | ⟨-, hnone⟩ := h.queued id' txid' key' hb
      · exact .inl hb
      · cases hnone
    · obtain ⟨rfl, rfl, rfl⟩ : id' = id ∧ txid' = txid ∧ key' = key := by simpa using hb
      exact .inr ⟨rfl, List.mem_singleton.mpr rfl⟩

theorem Sends.quiet {c : OcCause} {a b d : OcDb} (h : Sends c a b) (h' : Kept b d) :
    Sends c a d := by
  cases h with
  | kept h => exact .kept (h.trans h')
  | settled r kind txid rawHex hr hs hraw h => exact .settled r kind txid rawHex hr hs hraw (h.kept h')
  | again r o hr ho h => exact .again r o hr ho (h.kept h')
  | asked id key rescue hc h => exact .asked id key rescue hc (h.kept h')
  | signed r key txid rawHex rescue hr hres hkey hraw h =>
    exact .signed r key txid rawHex rescue hr hres hkey hraw (h.kept h')
  | marked r key txid rescue hr hres hm h => exact .marked r key txid rescue hr hres hm (h.kept h')

theorem Quiet.refl (db : OcDb) : Quiet db db := ⟨fun _ => rfl, .refl db⟩

theorem Quiet.trans {a b d : OcDb} (h : Quiet a b) (h' : Quiet b d) : Quiet a d :=
  ⟨fun id => (h'.cores id).trans (h.cores id), h.kept.trans h'.kept⟩

theorem Quiet.of_orders {db db' : OcDb} (h : db'.track.orders = db.track.orders)
    (hq : ∀ id txid key, Broadcasting db' id txid key → Broadcasting db id txid key) : Quiet db db' :=
  ⟨fun id => by rw [coreOf, coreOf, getOc_congr h], .of_orders h hq⟩

theorem Quiet.next {c : OcCause} {db db' : OcDb} (h : Quiet db db') : OcNext c db db' where
  rows id := by
    rw [h.cores id]
    exact .same _
  sends := .kept h.kept

theorem OcNext.quiet {c : OcCause} {a b d : OcDb} (h : OcNext c a b) (h' : Quiet b d) :
    OcNext c a d where
  rows id := by
    rw [h'.cores id]
    exact h.rows id
  sends := h.sends.quiet h'.kept

/-! ## The store -/

theorem getOc_setOc (now : ℤ) (orderId : OrderId) (patch : OnchainOrder → OnchainOrder)
    (metaPatch : OcMeta → OcMeta) (db : OcDb) (id : OrderId) :
    getOc id (setOc now orderId patch metaPatch db) =
      if id = orderId then (getOc id db).map (OcRow.stamp patch metaPatch now) else getOc id db :=
  KeyedTable.find_update db.track.orders orderId (OcRow.stamp patch metaPatch now) (fun _ => rfl) id

theorem getOc_updateOcMeta (orderId : OrderId) (metaPatch : OcMeta → OcMeta) (db : OcDb)
    (id : OrderId) :
    getOc id (updateOcMeta orderId metaPatch db) =
      if id = orderId then (getOc id db).map fun r => { r with ocMeta := metaPatch r.ocMeta }
      else getOc id db :=
  KeyedTable.find_update db.track.orders orderId
    (fun r => { r with ocMeta := metaPatch r.ocMeta }) (fun _ => rfl) id

theorem coreOf_setOc (now : ℤ) (orderId : OrderId) (patch : OnchainOrder → OnchainOrder)
    (metaPatch : OcMeta → OcMeta) (db : OcDb) (id : OrderId) :
    coreOf id (setOc now orderId patch metaPatch db) =
      if id = orderId then (getOc id db).map fun r => (r.stamp patch metaPatch now).core
      else coreOf id db := by
  rw [coreOf, getOc_setOc]
  by_cases hid : id = orderId
  · rw [if_pos hid, if_pos hid, Option.map_map]
    rfl
  · rw [if_neg hid, if_neg hid, coreOf]

theorem updateOc_ok {now : ℤ} {orderId : OrderId} {patch : OnchainOrder → OnchainOrder}
    {metaPatch : OcMeta → OcMeta} {db db' : OcDb} {o : OnchainOrder}
    (h : updateOc now orderId patch metaPatch db = .ok (o, db')) :
    ∃ row, getOc orderId db = some row ∧
      ((patch row.order).state = row.order.state ∨
        canOnchainTransition row.order.state (patch row.order).state = true) ∧
      db' = setOc now orderId patch metaPatch db := by
  unfold updateOc at h
  split at h
  · exact absurd h (by simp)
  · rename_i row hrow
    split at h
    · exact absurd h (by simp)
    · rename_i hok
      refine ⟨row, hrow, ?_, (Prod.mk.inj (Except.ok.inj h)).2.symm⟩
      by_cases hsame : (patch row.order).state = row.order.state
      · exact .inl hsame
      · exact .inr (by simpa [hsame] using hok)

/-- An order has been changed, and nothing of it is new to be sent out. -/
theorem sent_setOc (now : ℤ) (orderId : OrderId) (patch : OnchainOrder → OnchainOrder)
    (metaPatch : OcMeta → OcMeta) (db : OcDb) :
    Written db (setOc now orderId patch metaPatch db) orderId metaPatch [] where
  rows id r hr := by
    by_cases hid : id = orderId
    · refine ⟨r.stamp patch metaPatch now, by rw [getOc_setOc, if_pos hid, hr, Option.map_some], ?_⟩
      rw [if_pos hid]
      rfl
    · exact ⟨r, by rw [getOc_setOc, if_neg hid, hr], by rw [if_neg hid]⟩
  queued _ _ _ hb := .inl hb

theorem sent_updateOcMeta (orderId : OrderId) (metaPatch : OcMeta → OcMeta) (db : OcDb) :
    Written db (updateOcMeta orderId metaPatch db) orderId metaPatch [] where
  rows id r hr := by
    by_cases hid : id = orderId
    · refine ⟨{ r with ocMeta := metaPatch r.ocMeta }, ?_, by rw [if_pos hid]⟩
      rw [getOc_updateOcMeta, if_pos hid, hr, Option.map_some]
    · exact ⟨r, by rw [getOc_updateOcMeta, if_neg hid, hr], by rw [if_neg hid]⟩
  queued _ _ _ hb := .inl hb

/-- What is written of the private part is not what is sent out. -/
theorem Written.unsent {db db' : OcDb} {id : OrderId} {patch : OcMeta → OcMeta}
    (h : Written db db' id patch []) (hp : ∀ m, (patch m).sends = m.sends) : Kept db db' where
  rows id' r hr := by
    obtain ⟨r', hr', hs⟩ := h.rows id' r hr
    refine ⟨r', hr', hs.trans ?_⟩
    split
    · exact hp _
    · rfl
  queued id' txid key hb := by
    obtain hb | ⟨-, hnone⟩ := h.queued id' txid key hb
    · exact hb
    · cases hnone

/-- An update that makes one of the changes. -/
theorem rows_update {c : OcCause} {orderId : OrderId} {patch : OnchainOrder → OnchainOrder}
    {metaPatch : OcMeta → OcMeta} {db db' : OcDb} {o : OnchainOrder}
    (h : updateOc c.now orderId patch metaPatch db = .ok (o, db'))
    (hc : ∀ row, getOc orderId db = some row →
      OcChange c row.order row.ocMeta.record (patch row.order) (metaPatch row.ocMeta).record) :
    ∀ id, RowNext c (coreOf id db) (coreOf id db') := by
  obtain ⟨row, hrow, hlegal, rfl⟩ := updateOc_ok h
  intro id
  rw [coreOf_setOc]
  by_cases hid : id = orderId
  · subst hid
    rw [if_pos rfl, hrow, coreOf_eq_some hrow, Option.map_some]
    exact .changed row.core _ _ (hc row hrow) hlegal
  · rw [if_neg hid]
    exact .same _

/-- An update that makes one of the changes and writes nothing that is sent out. -/
theorem OcNext.update {c : OcCause} {orderId : OrderId} {patch : OnchainOrder → OnchainOrder}
    {metaPatch : OcMeta → OcMeta} {db db' : OcDb} {o : OnchainOrder}
    (h : updateOc c.now orderId patch metaPatch db = .ok (o, db'))
    (hm : ∀ m, (metaPatch m).sends = m.sends)
    (hc : ∀ row, getOc orderId db = some row →
      OcChange c row.order row.ocMeta.record (patch row.order) (metaPatch row.ocMeta).record) :
    OcNext c db db' := by
  refine ⟨rows_update h hc, .kept ?_⟩
  obtain ⟨-, -, -, rfl⟩ := updateOc_ok h
  exact (sent_setOc _ _ _ _ db).unsent hm

/-- Writing notes leaves the cores as they are. -/
theorem cores_updateOcMeta {orderId : OrderId} {metaPatch : OcMeta → OcMeta} {db : OcDb}
    (h : ∀ m, (metaPatch m).record = m.record) (id : OrderId) :
    coreOf id (updateOcMeta orderId metaPatch db) = coreOf id db := by
  rw [coreOf, coreOf, getOc_updateOcMeta]
  by_cases hid : id = orderId
  · rw [if_pos hid, Option.map_map]
    congr 1
    funext r
    simp only [Function.comp_apply, OcRow.core, h]
  · rw [if_neg hid]

/-- Writing notes of which nothing is sent out. -/
theorem quiet_updateOcMeta {orderId : OrderId} {metaPatch : OcMeta → OcMeta} {db : OcDb}
    (h : ∀ m, (metaPatch m).record = m.record) (hm : ∀ m, (metaPatch m).sends = m.sends) :
    Quiet db (updateOcMeta orderId metaPatch db) :=
  ⟨cores_updateOcMeta h, (sent_updateOcMeta _ _ db).unsent hm⟩

theorem next_insertOc {c : OcCause} {o : OnchainOrder} {m : OcMeta} {db db' : OcDb}
    (h : insertOc o m db = .ok db') (hs : o.state = .listed) (hk : o.settlementKind = none)
    (hf : o.fundingOutpoint = none) (ho : m.outbox = none)
    (ha : o.accountSentAt = none ∧ o.krwDeadline = none) (hb : o.Blank) : OcNext c db db' := by
  unfold insertOc at h
  split at h
  · exact absurd h (by simp)
  · rename_i orders hins
    obtain rfl := Except.ok.inj h
    have hfree := KeyedTable.find_of_insert hins
    refine ⟨fun id => ?_, .kept ⟨fun id r hr => ⟨r, ?_, rfl⟩, fun _ _ _ hb => hb⟩⟩
    swap
    · have hne : OcRow.orderId ⟨o, m, 1⟩ ≠ id := by
        rintro rfl
        cases hfree.symm.trans hr
      exact ((KeyedTable.find_insert hins id).trans (if_neg hne)).trans hr
    have hfind := KeyedTable.find_insert hins id
    by_cases hid : OcRow.orderId ⟨o, m, 1⟩ = id
    · subst hid
      have hnone : coreOf (OcRow.orderId ⟨o, m, 1⟩) db = none := by
        rw [coreOf, getOc, hfree, Option.map_none]
      have hsome : coreOf (OcRow.orderId ⟨o, m, 1⟩) (setOrders orders db) =
          some (OcRow.core ⟨o, m, 1⟩) := by
        apply coreOf_eq_some
        rw [getOc]
        exact hfind.trans (if_pos rfl)
      rw [hnone, hsome]
      exact .listed _ hs hk hf ho rfl ha hb
    · have hsame : coreOf id (setOrders orders db) = coreOf id db := by
        rw [coreOf, coreOf, getOc, getOc]
        exact congrArg _ (hfind.trans (if_neg hid))
      rw [hsame]
      exact .same _

/-! ## Bonds -/

/-- An escrow that has been made has all three keys, and a timelock. -/
theorem escrowDescriptorFor_keys {P : Type} {env : OcEnv P} {o : OnchainOrder}
    {d : EscrowDescriptor} (h : escrowDescriptorFor env o = some d) :
    (given o.customerXonly).isSome ∧ (∀ x, o.sponsorXonly = some x → x ≠ "") ∧
      (∀ x, o.adminXonly = some x → x ≠ "") ∧ d.timelockBlocks ≠ 0 := by
  have hne : ∀ {s : Option String} {t : String}, given s = some t → ∀ x, s = some x → x ≠ "" := by
    intro s t hs x hx
    obtain ⟨hsome, hempty⟩ := Option.filter_eq_some_iff.mp hs
    obtain rfl := Option.some.inj (hx.symm.trans hsome)
    exact of_decide_eq_true hempty
  unfold escrowDescriptorFor at h
  split at h
  · rename_i customer sponsor admin hcustomer hsponsor hadmin
    refine ⟨by rw [hcustomer]; rfl, hne hsponsor, hne hadmin, ?_⟩
    cases hd : deriveEscrowAddress env.lib ⟨customer, sponsor, admin⟩ o.network
        o.timelockBlocks with
    | error e =>
      rw [hd] at h
      exact absurd h (by simp [Except.toOption])
    | ok d' =>
      rw [hd] at h
      obtain rfl := Option.some.inj h
      simp only [deriveEscrowAddress, Except.bind_eq_ok_iff] at hd
      obtain ⟨leaves, hleaves, _, -, _, -, payment, -, hd⟩ := hd
      simp only [buildEscrowLeaves, Except.bind_eq_ok_iff] at hleaves
      obtain ⟨_, -, _, htimelock, -⟩ := hleaves
      unfold assertTimelock at htimelock
      split at htimelock
      · cases htimelock
      · rename_i hrange
        rw [not_or, not_or, not_lt] at hrange
        split at hd
        · exact absurd hd (by simp)
        · split at hd
          · exact absurd hd (by simp)
          · obtain rfl := Except.ok.inj hd
            exact (zero_lt_one.trans_le hrange.2.1).ne'
  · exact absurd h (by simp)

/-- An escrow that has been made has an address. -/
theorem escrowDescriptorFor_address {P : Type} {env : OcEnv P} {o : OnchainOrder}
    {d : EscrowDescriptor} (h : escrowDescriptorFor env o = some d) : d.address ≠ "" := by
  unfold escrowDescriptorFor at h
  split at h
  · rename_i customer sponsor admin _ _ _
    cases hd : deriveEscrowAddress env.lib ⟨customer, sponsor, admin⟩ o.network
        o.timelockBlocks with
    | error e =>
      rw [hd] at h
      exact absurd h (by simp [Except.toOption])
    | ok d' =>
      rw [hd] at h
      obtain rfl := Option.some.inj h
      simp only [deriveEscrowAddress, Except.bind_eq_ok_iff] at hd
      obtain ⟨_, -, _, -, _, -, payment, -, hd⟩ := hd
      split at hd
      · exact absurd hd (by simp)
      · rename_i address haddress
        split at hd
        · exact absurd hd (by simp)
        · obtain rfl := Except.ok.inj hd
          exact of_decide_eq_true (Option.filter_eq_some_iff.mp haddress).2
  · exact absurd h (by simp)

theorem track_applyBond (h : Option Hash) (d : BondDisposition) (db : OcDb) :
    (applyBond h d db).track = db.track := by
  unfold applyBond
  split
  · rfl
  · split
    · rfl
    · cases d with
      | forfeit => exact dispose_track _ _ _
      | refund => exact dispose_track _ _ _
      | expired => rfl
      | none => rfl
      | hold => rfl

theorem quiet_deleteCandidate (h : Hash) (db : OcDb) : Quiet db (deleteCandidate h db) :=
  Quiet.of_orders rfl fun _ _ _ hb => hb

/-- An effect is stacked that is no broadcast. -/
theorem quiet_enqueue {e : Effect OcEffect} (he : ∀ id txid key, .own (.broadcast id txid key) ≠ e)
    (db : OcDb) : Quiet db (db.enqueue e) :=
  Quiet.of_orders (by rw [Db.enqueue_track]) fun id txid key hb =>
    (Db.mem_enqueue hb).resolve_right (he id txid key)

theorem quiet_dispose (h : Hash) (a : DisposeAction) (db : OcDb) : Quiet db (dispose h a db) :=
  quiet_enqueue (by simp) db

theorem quiet_applyBond (h : Option Hash) (d : BondDisposition) (db : OcDb) :
    Quiet db (applyBond h d db) := by
  unfold applyBond
  split
  · exact Quiet.refl db
  · split
    · exact Quiet.refl db
    · cases d with
      | forfeit | refund => exact quiet_dispose _ _ db
      | none | expired | hold => exact Quiet.refl db

theorem quiet_applyOutcome (o : OnchainOrder) (outcome : OnchainOutcome) (db : OcDb) :
    Quiet db (applyOutcome o outcome db) :=
  (quiet_applyBond _ _ db).trans (quiet_applyBond _ _ _)

theorem quiet_dropCandidates (cs : List OcCandidate) (db : OcDb) :
    Quiet db (cs.foldl (fun db c => dropCandidate c db) db) := by
  induction cs generalizing db with
  | nil => exact Quiet.refl db
  | cons c cs ih =>
    have hc : Quiet db (dropCandidate c db) := (quiet_dispose _ _ db).trans (quiet_deleteCandidate _ _)
    exact hc.trans (ih _)

theorem quiet_dropSponsorCandidates (orderId : OrderId) (db : OcDb) :
    Quiet db (dropSponsorCandidates orderId db) := quiet_dropCandidates _ db

theorem quiet_putCandidate {x : OcCandidate} {db db' : OcDb} (h : putCandidate x db = .ok db') :
    Quiet db db' := by
  unfold putCandidate at h
  split at h
  · exact absurd h (by simp)
  · obtain rfl := Except.ok.inj h
    exact Quiet.of_orders rfl fun _ _ _ hb => hb

theorem quiet_plan {keys : KeyDerivation} {now : ℤ} {p : HoldPlan} {db db' : OcDb} {row : HoldRow}
    (h : plan keys now p db = .ok (row, db')) : Quiet db db' := by
  obtain ⟨_, _, holds, _, _, _, rfl⟩ := plan_spec h
  have hplan : Quiet db { db with holds := holds } := Quiet.of_orders rfl fun _ _ _ hb => hb
  exact hplan.trans (quiet_enqueue (by simp) _)

namespace OcCtx

variable {P : Type} {ctx : OcCtx P} {c : OcCause} {db db' : OcDb}

theorem next_listOc {orderId : OrderId} {customer : Pubkey} {info : CustomerListInfo}
    {bond : Option Bond} {designated : Option Pubkey}
    (h : ctx.listOc orderId customer info bond designated db = .ok db') : OcNext c db db' := by
  unfold listOc at h
  obtain ⟨db₁, hins, h⟩ := Except.bind_eq_ok_iff.mp h
  have hnext : OcNext c db db₁ := next_insertOc hins rfl rfl rfl rfl ⟨rfl, rfl⟩
    ⟨⟨rfl, rfl, rfl⟩, ⟨rfl, rfl⟩, ⟨rfl, rfl, rfl, rfl⟩, rfl⟩
  obtain rfl := Except.ok.inj h
  refine hnext.quiet ?_
  split
  · exact quiet_deleteCandidate _ _
  · exact Quiet.refl _

theorem next_bondOc {row : OcRow} {sponsor : Pubkey} {info : SponsorClaimInfo} {bond : Option Bond}
    {b : Bool} (hc : c.now = ctx.now) (hrow : getOc row.order.orderId db = some row)
    (hs : row.order.state = .listed) (hclaim : c.claims sponsor)
    (h : ctx.bondOc row sponsor info bond db = .ok (b, db')) : OcNext c db db' := by
  unfold bondOc at h
  dsimp only at h
  split at h
  · obtain ⟨-, rfl⟩ := Prod.mk.inj (Except.ok.inj h)
    exact (Quiet.refl _).next
  · rename_i descriptor hd
    obtain ⟨⟨o, db₁⟩, hup, h⟩ := Except.bind_eq_ok_iff.mp h
    obtain ⟨-, rfl⟩ := Prod.mk.inj (Except.ok.inj h)
    rw [← hc] at hup
    have haddress : descriptor.address ≠ "" := escrowDescriptorFor_address hd
    have hnext : OcNext c db db₁ := OcNext.update hup (fun _ => rfl) fun r hr => by
      obtain rfl := Option.some.inj (hrow.symm.trans hr)
      obtain ⟨hcustomer, hsponsor, hadmin, htimelock⟩ := escrowDescriptorFor_keys hd
      exact .bond sponsor info _ _ _ _ _ hs haddress ⟨hcustomer, hsponsor _ rfl, hadmin _ rfl,
        htimelock⟩ hclaim
    refine hnext.quiet (Quiet.trans ?_ (quiet_dropSponsorCandidates _ _))
    split
    · exact quiet_deleteCandidate _ _
    · exact Quiet.refl _

/-- A bond that comes in lists the order, claims it, or is given back. -/
theorem next_accepted {inv : HoldRow} (hc : c.now = ctx.now) (hclaim : c.claims inv.party)
    (h : ctx.bondHooks.accepted inv db = .ok db') : OcNext c db db' := by
  simp only [bondHooks] at h
  split at h
  · split at h
    · obtain rfl := Except.ok.inj h
      exact (quiet_dispose _ _ db).next
    · obtain rfl := Except.ok.inj h
      exact (Quiet.refl db).next
  · split at h
    · unfold onCustomerBond at h
      split at h
      · obtain rfl := Except.ok.inj h
        exact (quiet_dispose _ _ db).next
      · exact next_listOc h
    · unfold onSponsorBond at h
      split at h
      · obtain rfl := Except.ok.inj h
        exact (quiet_dispose _ _ db).next
      · rename_i row hrow
        obtain ⟨hget, hlisted⟩ := Option.filter_eq_some_iff.mp hrow
        obtain ⟨⟨bonded, db₁⟩, hbond, h⟩ := Except.bind_eq_ok_iff.mp h
        obtain rfl := Except.ok.inj h
        have hid := orderId_of_getOc hget
        have hnext : OcNext c db db₁ :=
          next_bondOc hc (hid ▸ hget) (of_decide_eq_true hlisted) hclaim hbond
        refine hnext.quiet ?_
        split
        · exact Quiet.refl _
        · exact quiet_dispose _ _ _

theorem quiet_created {inv : HoldRow} (h : ctx.bondHooks.created inv db = .ok db') :
    Quiet db db' := by
  simp only [bondHooks] at h
  split at h
  · obtain rfl := Except.ok.inj h
    exact Quiet.refl db
  · obtain rfl := Except.ok.inj h
    exact (quiet_dispose _ _ db).trans (quiet_deleteCandidate _ _)

/-! ## Settlements -/

theorem next_enterSettling {orderId : OrderId} {kind : SettlementKind} {txid rawHex : String}
    {row : OcRow} (hc : c.now = ctx.now) (hrow : getOc orderId db = some row)
    (hk : kind = .release ∨ row.order.settlementKind = some kind)
    (hs : canActOnSignRequest row.order.state (signPurposeFor kind) row.order.settlementKind = true)
    (hcos : c.cosigns row.order kind)
    (ht : c.completes row.order row.ocMeta.record kind txid rawHex) (hraw : c.finalizes rawHex)
    (h : ctx.enterSettling orderId kind txid rawHex db = .ok db') : OcNext c db db' := by
  unfold enterSettling at h
  obtain ⟨⟨settling, db₁⟩, hup, h⟩ := Except.bind_eq_ok_iff.mp h
  obtain rfl := Except.ok.inj h
  rw [← hc] at hup
  obtain rfl := orderId_of_getOc hrow
  have hrows := rows_update hup fun r hr => by
    obtain rfl := Option.some.inj (hrow.symm.trans hr)
    exact .cosign kind txid rawHex hk hs hcos ht
  obtain ⟨-, -, -, rfl⟩ := updateOc_ok hup
  have hquiet : ∀ db₁, Quiet db₁ (if kind = .release then applyOutcome settling (.kind kind) db₁
      else db₁) := by
    intro db₁
    split
    · exact quiet_applyOutcome _ _ _
    · exact Quiet.refl _
  refine ⟨fun id => ?_, .settled row kind txid rawHex hrow hs hraw
    (Written.broadcast ((sent_setOc _ _ _ _ db).kept (hquiet _).kept))⟩
  rw [cores_requestBroadcast, (hquiet _).cores id]
  exact hrows id

theorem quiet_requestSettlementSignature {orderId : OrderId} {b : Bool}
    (h : ctx.requestSettlementSignature orderId db = .ok (b, db')) : Quiet db db' := by
  unfold requestSettlementSignature at h
  split at h
  · obtain ⟨-, rfl⟩ := Prod.mk.inj (Except.ok.inj h)
    exact Quiet.refl db
  · split at h
    · obtain ⟨-, rfl⟩ := Prod.mk.inj (Except.ok.inj h)
      exact Quiet.refl db
    · dsimp only at h
      split at h
      · split at h
        · exact absurd h (by simp)
        · obtain ⟨-, rfl⟩ := Prod.mk.inj (Except.ok.inj h)
          exact (quiet_enqueue (by simp) db).trans
            (quiet_updateOcMeta (fun _ => rfl) fun _ => rfl)
      · obtain ⟨-, rfl⟩ := Prod.mk.inj (Except.ok.inj h)
        exact Quiet.refl db

/-- The fee of a settlement is put in when it is known. -/
theorem settlementParamsFor_fee {env : OcEnv P} {o : OnchainOrder} {m : OcMeta}
    {kind : SettlementKind} {fee : ℚ} {params : BuildSettlementParams} (hk : kind ≠ .release)
    (h : settlementParamsFor env o m kind (some fee) = some params) (fee' : ℚ) :
    settlementParamsFor env o m kind (some fee') = some { params with feeSat := fee' } := by
  unfold settlementParamsFor at h ⊢
  split at h
  · simp only [if_neg hk] at h ⊢
    split at h
    · rename_i destination fee₁ hdestination hfee
      rw [hdestination]
      obtain rfl := Option.some.inj h
      rfl
    · exact absurd h (by simp)
  · exact absurd h (by simp)

/-- What can be built with a fee is what has been decided on. -/
theorem buildable_of_fee {env : OcEnv P} {draft o : OnchainOrder} {m : OcMeta}
    {kind : SettlementKind} {shape : BuildSettlementParams} {fee feeSat : ℚ} {tx : BtcTransaction}
    (hk : kind ≠ .release) (hshape : settlementParamsFor env draft m kind (some fee) = some shape)
    (hsame : ∀ f, settlementParamsFor env o m kind f = settlementParamsFor env draft m kind f)
    (hkind : o.settlementKind = some kind) (hfee : o.settlementFeeSat = some feeSat)
    (hbuild : buildSettlementTx env.lib { shape with feeSat := feeSat } = .ok tx) :
    Buildable env o m := by
  intro kind' hkind' _ params hparams
  obtain rfl := Option.some.inj (hkind.symm.trans hkind')
  rw [hfee, hsame, settlementParamsFor_fee hk hshape feeSat] at hparams
  obtain rfl := Option.some.inj hparams
  exact ⟨tx, hbuild⟩

theorem mayDecide_release {fold : Bool} {o : OnchainOrder} {kind : SettlementKind}
    (h : mayDecide kind fold o = true) : kind ≠ .release := by
  rintro rfl
  exact absurd ((Bool.and_eq_true _ _).mp h).2 (by simp)

theorem next_decideSettlement {orderId : OrderId} {kind : SettlementKind}
    {fold : Option (Outpoint × ℕ)} {error : Option String} (hc : c.now = ctx.now)
    (hb : ∀ o m, Buildable ctx.env o m → c.builds o m)
    (h : ctx.decideSettlement orderId kind fold db = .ok (error, db')) : OcNext c db db' := by
  unfold decideSettlement at h
  split at h
  · obtain ⟨-, rfl⟩ := Prod.mk.inj (Except.ok.inj h)
    exact (Quiet.refl db).next
  · rename_i row hrow
    obtain ⟨hget, hmay⟩ := Option.filter_eq_some_iff.mp hrow
    dsimp only at h
    split at h
    · obtain ⟨-, rfl⟩ := Prod.mk.inj (Except.ok.inj h)
      exact (Quiet.refl db).next
    · split at h
      · obtain ⟨-, rfl⟩ := Prod.mk.inj (Except.ok.inj h)
        exact (Quiet.refl db).next
      · rename_i shape hshape
        split at h
        · obtain ⟨-, rfl⟩ := Prod.mk.inj (Except.ok.inj h)
          exact (Quiet.refl db).next
        · rename_i feeSat hfee
          obtain ⟨⟨updated, db₁⟩, hup, h⟩ := Except.bind_eq_ok_iff.mp h
          obtain ⟨⟨b, db₂⟩, hsign, h⟩ := Except.bind_eq_ok_iff.mp h
          obtain ⟨-, rfl⟩ := Prod.mk.inj (Except.ok.inj h)
          rw [← hc] at hup
          have hnext : OcNext c db db₁ := OcNext.update hup (fun _ => rfl) fun r hr => by
            obtain rfl := Option.some.inj (hget.symm.trans hr)
            simp only [settlementFee, Except.bind_eq_ok_iff] at hfee
            obtain ⟨fee, -, tx, hbuild, hpure⟩ := hfee
            obtain rfl := Except.ok.inj hpure
            have hne := mayDecide_release hmay
            cases fold with
            | none =>
              refine .decide kind fee none _ hmay rfl (hb _ _ ?_)
              exact buildable_of_fee hne hshape (fun _ => rfl) rfl rfl hbuild
            | some f =>
              refine .decide kind fee (some f) _ hmay rfl (hb _ _ ?_)
              exact buildable_of_fee hne hshape (fun _ => rfl) rfl rfl hbuild
          exact hnext.quiet ((quiet_applyOutcome _ _ _).trans
            (quiet_requestSettlementSignature hsign))

theorem next_resolveAccountDispute {orderId : OrderId} {accountBad : Bool} {error : Option String}
    (hc : c.now = ctx.now) (hres : ∀ r, getOc orderId db = some r → c.resolves r.order)
    (h : ctx.resolveAccountDispute orderId accountBad db = .ok (error, db')) : OcNext c db db' := by
  unfold resolveAccountDispute at h
  split at h
  · obtain ⟨-, rfl⟩ := Prod.mk.inj (Except.ok.inj h)
    exact (Quiet.refl db).next
  · rename_i row hrow
    obtain ⟨hget, hkind⟩ := Option.filter_eq_some_iff.mp hrow
    split at h
    · obtain ⟨-, rfl⟩ := Prod.mk.inj (Except.ok.inj h)
      exact (Quiet.refl db).next
    · rename_i hstate
      obtain ⟨⟨updated, db₁⟩, hup, h⟩ := Except.bind_eq_ok_iff.mp h
      obtain ⟨-, rfl⟩ := Prod.mk.inj (Except.ok.inj h)
      rw [← hc] at hup
      have hnext : OcNext c db db₁ := OcNext.update hup (fun _ => rfl) fun r hr => by
        obtain rfl := Option.some.inj (hget.symm.trans hr)
        refine .resolve _ (of_decide_eq_true hkind) ?_ (by simpa using not_not.mp hstate) (hres row hget)
        cases accountBad with
        | false => exact .inr rfl
        | true => exact .inl rfl
      exact hnext.quiet (quiet_applyOutcome _ _ _)

theorem setRescue_record (key : String) (rescue : OcRescue) (m : OcMeta) :
    (setRescue key rescue m).record = m.record := rfl

/-- Notes are written of which something is sent out. -/
theorem next_updateOcMeta {orderId : OrderId} {metaPatch : OcMeta → OcMeta}
    (h : ∀ m, (metaPatch m).record = m.record) (hs : Sends c db (updateOcMeta orderId metaPatch db)) :
    OcNext c db (updateOcMeta orderId metaPatch db) where
  rows id := by
    rw [cores_updateOcMeta h id]
    exact .same _
  sends := hs

theorem next_requestRescue (ctx : OcCtx P) (orderId : OrderId) (utxo : OcUtxo) (db : OcDb)
    (hc : c.asks orderId (formatOutpoint utxo.outpoint)) :
    OcNext c db (ctx.requestRescue orderId utxo db).2 := by
  unfold requestRescue
  split
  · exact (Quiet.refl db).next
  · split
    · exact (Quiet.refl db).next
    · split
      · split
        · exact (Quiet.refl db).next
        · dsimp only
          split
          · exact (Quiet.refl db).next
          · exact (next_updateOcMeta (fun m => setRescue_record _ _ m)
              (.asked orderId _ _ hc (sent_updateOcMeta _ _ db))).quiet (quiet_enqueue (by simp) _)
      · exact (Quiet.refl db).next

/-! ## Requests -/

variable {event : OcEvent} {answer : OcAnswer}

theorem quiet_ignored {reason : String} (h : ignored reason db = .ok (answer, db')) :
    Quiet db db' := by
  obtain ⟨-, rfl⟩ := Prod.mk.inj (Except.ok.inj h)
  exact Quiet.refl db

theorem quiet_reject {text : String} (h : reject event text db = .ok (answer, db')) : Quiet db db' := by
  obtain ⟨-, rfl⟩ := Prod.mk.inj (Except.ok.inj h)
  exact Quiet.refl db

/-- What is accepted leaves its own ledger. -/
theorem accepted_ok {r : Except Abort OcDb} (h : accepted r = .ok (answer, db')) : r = .ok db' := by
  obtain ⟨db₁, hr, hpair⟩ := Except.map_eq_ok_iff.mp h
  obtain ⟨-, rfl⟩ := Prod.mk.inj hpair
  exact hr

theorem quiet_ocOrderRequest (h : ctx.ocOrderRequest event db = .ok (answer, db')) :
    Quiet db db' := by
  unfold ocOrderRequest at h
  split at h
  · exact quiet_ignored h
  · dsimp only at h
    split at h
    · exact quiet_ignored h
    · split at h
      · obtain ⟨-, rfl⟩ := Prod.mk.inj (Except.ok.inj h)
        exact Quiet.refl db
      · split at h
        · exact quiet_reject h
        · split at h
          · exact quiet_reject h
          · split at h
            · exact quiet_reject h
            · split at h
              · exact quiet_reject h
              · split at h
                · exact quiet_reject h
                · obtain ⟨⟨inv, db₁⟩, hplan, hput⟩ := Except.bind_eq_ok_iff.mp (accepted_ok h)
                  exact (quiet_plan hplan).trans (quiet_putCandidate hput)

theorem next_ocDesignatedOrderRequest
    (h : ctx.ocDesignatedOrderRequest event db = .ok (answer, db')) : OcNext c db db' := by
  unfold ocDesignatedOrderRequest at h
  split at h
  · exact (quiet_ignored h).next
  · split at h
    · exact (quiet_ignored h).next
    · exact (quiet_ignored h).next
    · split at h
      · exact (quiet_ignored h).next
      · dsimp only at h
        split at h
        · exact (quiet_ignored h).next
        · split at h
          · obtain ⟨-, rfl⟩ := Prod.mk.inj (Except.ok.inj h)
            exact (Quiet.refl db).next
          · split at h
            · exact (quiet_reject h).next
            · split at h
              · exact (quiet_reject h).next
              · split at h
                · exact (quiet_reject h).next
                · split at h
                  · exact (quiet_reject h).next
                  · split at h
                    · exact (quiet_reject h).next
                    · exact next_listOc (accepted_ok h)

theorem next_ocClaim (hc : c.now = ctx.now) (hclaim : c.claims event.pubkey)
    (h : ctx.ocClaim event db = .ok (answer, db')) : OcNext c db db' := by
  unfold ocClaim at h
  split at h
  · exact (quiet_ignored h).next
  · split at h
    · exact (quiet_ignored h).next
    · split at h
      · exact (quiet_reject h).next
      · rename_i row hrow
        obtain ⟨hget, hlisted⟩ := Option.filter_eq_some_iff.mp hrow
        dsimp only at h
        split at h
        · exact (quiet_reject h).next
        · split at h
          · exact (quiet_reject h).next
          · split at h
            · exact (quiet_reject h).next
            · split at h
              · exact (quiet_ignored h).next
              · split at h
                · exact (quiet_reject h).next
                · split at h
                  · exact (quiet_reject h).next
                  · split at h
                    · obtain ⟨⟨bonded, db₁⟩, hbond, h⟩ := Except.bind_eq_ok_iff.mp h
                      have hid := orderId_of_getOc hget
                      have hnext : OcNext c db db₁ :=
                        next_bondOc hc (hid ▸ hget) (of_decide_eq_true hlisted) hclaim hbond
                      dsimp only at h
                      split at h
                      · obtain ⟨-, rfl⟩ := Prod.mk.inj (Except.ok.inj h)
                        exact hnext
                      · exact hnext.quiet (quiet_reject h)
                    · split at h
                      · exact (quiet_reject h).next
                      · obtain ⟨⟨inv, db₁⟩, hplan, hput⟩ :=
                          Except.bind_eq_ok_iff.mp (accepted_ok h)
                        exact ((quiet_plan hplan).trans (quiet_putCandidate hput)).next

section Row

variable {row : OcRow} (hc : c.now = ctx.now) (hrow : getOc row.order.orderId db = some row)

include hc hrow

theorem next_ocPresig
    (ht : row.order.awaits event.pubkey .presig →
      isPast (row.order.turnDeadline .presig) (ctx.requestAt event) = false → c.takes row.order .presig)
    (h : ctx.ocPresig event row db = .ok (answer, db')) : OcNext c db db' := by
  unfold ocPresig at h
  dsimp only at h
  split at h
  · exact (quiet_ignored h).next
  · rename_i hsender
    split at h
    · exact (quiet_reject h).next
    · rename_i hguard
      have hs : row.order.state = .funded := by simpa using (not_or.mp hguard).1
      have hk : row.order.settlementKind = none := by simpa using (not_or.mp hguard).2
      split at h
      · exact (quiet_reject h).next
      · rename_i hpast
        split at h
        · exact (quiet_ignored h).next
        · split at h
          · exact (quiet_ignored h).next
          · rename_i psbt _
            split at h
            · exact (quiet_reject h).next
            · obtain ⟨⟨o, db₁⟩, hup, hdone⟩ := Except.bind_eq_ok_iff.mp (accepted_ok h)
              obtain rfl := Except.ok.inj hdone
              rw [← hc] at hup
              have hnext : OcNext c db db₁ := OcNext.update hup (fun _ => rfl) fun r hr => by
                obtain rfl := Option.some.inj (hrow.symm.trans hr)
                exact .presig psbt hs hk
                  (ht ⟨not_not.mp hsender, hs, hk⟩ (Bool.eq_false_iff.mpr hpast))
              exact hnext.quiet (quiet_enqueue (by simp) _)

theorem next_ocRemit
    (ht : row.order.awaits event.pubkey .remit →
      isPast (row.order.turnDeadline .remit) (ctx.requestAt event) = false → c.takes row.order .remit)
    (h : ctx.ocRemit event row db = .ok (answer, db')) : OcNext c db db' := by
  unfold ocRemit at h
  dsimp only at h
  split at h
  · exact (quiet_ignored h).next
  · rename_i hsender
    split at h
    · exact (quiet_reject h).next
    · rename_i hguard
      have hs : row.order.state = .presigned := by simpa using (not_or.mp hguard).1
      have hk : row.order.settlementKind = none := by simpa using (not_or.mp hguard).2
      split at h
      · exact (quiet_reject h).next
      · rename_i hsent
        split at h
        · exact (quiet_reject h).next
        · rename_i hpast
          have hsent : nonzero row.order.accountSentAt ≠ none := by simpa using hsent
          obtain ⟨⟨o, db₁⟩, hup, rfl⟩ := Except.map_eq_ok_iff.mp (accepted_ok h)
          rw [← hc] at hup
          exact OcNext.update hup (fun _ => rfl) fun r hr => by
            obtain rfl := Option.some.inj (hrow.symm.trans hr)
            exact .remit hs hk
              (ht ⟨not_not.mp hsender, hs, hk, hsent⟩ (Bool.eq_false_iff.mpr hpast))

theorem next_ocAccountInfo
    (ht : row.order.awaits event.pubkey .account →
      isPast (row.order.turnDeadline .account) (ctx.requestAt event) = false → c.takes row.order .account)
    (h : ctx.ocAccountInfo event row db = .ok (answer, db')) : OcNext c db db' := by
  unfold ocAccountInfo at h
  dsimp only at h
  split at h
  · exact (quiet_ignored h).next
  · rename_i hsender
    split at h
    · exact (quiet_ignored h).next
    · rename_i hguard
      obtain ⟨hstate, hguard⟩ := not_or.mp hguard
      obtain ⟨hsent, hkind⟩ := not_or.mp hguard
      have hs : row.order.state = .presigned := not_not.mp hstate
      have hk : row.order.settlementKind = none := by simpa using hkind
      have hsent : nonzero row.order.accountSentAt = none := by simpa using hsent
      split at h
      · exact (quiet_reject h).next
      · rename_i hpast
        obtain ⟨⟨o, db₁⟩, hup, rfl⟩ := Except.map_eq_ok_iff.mp (accepted_ok h)
        rw [← hc] at hup
        exact OcNext.update hup (fun _ => rfl) fun r hr => by
          obtain rfl := Option.some.inj (hrow.symm.trans hr)
          exact .account _ hs hk hsent
            (ht ⟨not_not.mp hsender, hs, hk, hsent⟩ (Bool.eq_false_iff.mpr hpast))

theorem next_ocDispute (h : ctx.ocDispute event row db = .ok (answer, db')) : OcNext c db db' := by
  unfold ocDispute at h
  dsimp only at h
  split at h
  · exact (quiet_ignored h).next
  · split at h
    · rename_i hremitted
      obtain ⟨⟨o, db₁⟩, hup, rfl⟩ := Except.map_eq_ok_iff.mp (accepted_ok h)
      rw [← hc] at hup
      exact OcNext.update hup (fun _ => rfl) fun r hr => by
        obtain rfl := Option.some.inj (hrow.symm.trans hr)
        exact .dispute (.inl hremitted)
    · split at h
      · rename_i hpresigned
        split at h
        · rename_i hguard
          obtain ⟨-, -, -, hkind, -⟩ := hguard
          obtain ⟨⟨o, db₁⟩, hup, rfl⟩ := Except.map_eq_ok_iff.mp (accepted_ok h)
          rw [← hc] at hup
          exact OcNext.update hup (fun _ => rfl) fun r hr => by
            obtain rfl := Option.some.inj (hrow.symm.trans hr)
            exact .objection hpresigned.1 (Option.isNone_iff_eq_none.mp hkind)
        · exact (quiet_reject h).next
      · exact (quiet_reject h).next

end Row

theorem next_ocCancel (hc : c.now = ctx.now) (h : ctx.ocCancel event db = .ok (answer, db')) :
    OcNext c db db' := by
  unfold ocCancel at h
  split at h
  · exact (quiet_ignored h).next
  · split at h
    · dsimp only at h
      split at h
      · obtain ⟨-, rfl⟩ := Prod.mk.inj (Except.ok.inj h)
        exact (quiet_dropCandidates _ db).next
      · exact ((quiet_dropCandidates _ db).trans (quiet_ignored h)).next
    · rename_i row hrow
      split at h
      · exact (quiet_ignored h).next
      · split at h
        · exact (quiet_reject h).next
        · rename_i hlisted
          obtain ⟨⟨o, db₁⟩, hup, hdone⟩ := Except.bind_eq_ok_iff.mp (accepted_ok h)
          obtain rfl := Except.ok.inj hdone
          rw [← hc] at hup
          have hnext : OcNext c db db₁ := OcNext.update hup (fun _ => rfl) fun r hr => by
            obtain rfl := Option.some.inj (hrow.symm.trans hr)
            exact .cancel (.inl (not_not.mp hlisted))
          exact hnext.quiet ((quiet_applyOutcome _ _ _).trans (quiet_dropSponsorCandidates _ _))

/-- Who has to sign a settlement of a kind. -/
def expectedSender (order : OnchainOrder) (kind : SettlementKind) : Option Pubkey :=
  if awaitingSponsor kind then order.sponsorPubkey else some order.customerPubkey

/-- The transaction has been finished. -/
def Finalized (env : OcEnv P) (rawHex : String) : Prop := ∃ tx, env.finalizedHex tx = .ok rawHex

/-- What is completed has been finished. -/
theorem completeSettlement_finalized {row : OcRow} {release : Bool} {expected : BuildSettlementParams}
    {signerXonly rawHex txid : String} {sig leafScript : Bytes}
    (h : ctx.completeSettlement row release expected signerXonly sig leafScript =
      .ok (some (rawHex, txid))) : Finalized ctx.env rawHex := by
  have hlast : ∀ {x : Except String (Option BtcTransaction)}
      {k : Option BtcTransaction → Except String (Option (String × String))},
      x >>= k = .ok (some (rawHex, txid)) → k none = .ok none →
      (∀ tx, k (some tx) = do
        let rawHex ← ctx.env.finalizedHex tx
        let txid ← ctx.env.lib.txid tx
        return some (rawHex, txid)) →
      Finalized ctx.env rawHex := by
    intro x k hx hnone hsome
    obtain ⟨signed, -, hrest⟩ := Except.bind_eq_ok_iff.mp hx
    cases signed with
    | none => cases hnone.symm.trans hrest
    | some tx =>
      rw [hsome] at hrest
      obtain ⟨raw, hraw, hrest⟩ := Except.bind_eq_ok_iff.mp hrest
      obtain ⟨id, -, hrest⟩ := Except.bind_eq_ok_iff.mp hrest
      obtain ⟨rfl, -⟩ := Prod.mk.inj (Option.some.inj (Except.ok.inj hrest))
      exact ⟨tx, hraw⟩
  unfold completeSettlement at h
  obtain ⟨mine, -, h⟩ := Except.bind_eq_ok_iff.mp h
  obtain ⟨tx, -, h⟩ := Except.bind_eq_ok_iff.mp h
  split at h
  · split at h
    · exact hlast h rfl fun _ => rfl
    · exact hlast (x := .ok none) h rfl fun _ => rfl
  · exact hlast h rfl fun _ => rfl

theorem next_ocRescueCosign {row : OcRow} (hrow : getOc row.order.orderId db = some row)
    (hraw : ∀ rawHex, Finalized ctx.env rawHex → c.finalizes rawHex)
    (h : ctx.ocRescueCosign event row db = .ok (answer, db')) : OcNext c db db' := by
  unfold ocRescueCosign at h
  dsimp only at h
  split at h
  · exact (quiet_ignored h).next
  · split at h
    · exact (quiet_ignored h).next
    · split at h
      · exact (quiet_ignored h).next
      · split at h
        · exact (quiet_ignored h).next
        · rename_i rescue hrescue
          split at h
          · exact (quiet_ignored h).next
          · split at h
            · exact (quiet_ignored h).next
            · split at h
              · exact (quiet_ignored h).next
              · split at h
                · exact (quiet_reject h).next
                · split at h
                  · rename_i rawHex txid hdone
                    obtain ⟨-, rfl⟩ := Prod.mk.inj (Except.ok.inj h)
                    refine ⟨fun id => ?_, .signed row _ txid rawHex rescue hrow hrescue
                      (formatOutpoint_ne _) (hraw rawHex (completeSettlement_finalized hdone))
                      (Written.broadcast (sent_updateOcMeta _ _ db))⟩
                    rw [cores_requestBroadcast, cores_updateOcMeta fun m => setRescue_record _ _ m]
                    exact .same _
                  · exact (quiet_ignored h).next

/-- A cosignature that is taken is one the state allows, from the one who has to sign. -/
theorem next_ocCosign {row : OcRow} (hc : c.now = ctx.now)
    (hrow : getOc row.order.orderId db = some row)
    (hcos : ∀ kind, some event.pubkey = expectedSender row.order kind → c.cosigns row.order kind)
    (ht : ∀ kind txid rawHex, Completes ctx.env event row.order row.ocMeta.record kind txid rawHex →
      c.completes row.order row.ocMeta.record kind txid rawHex)
    (hraw : ∀ rawHex, Finalized ctx.env rawHex → c.finalizes rawHex)
    (h : ctx.ocCosign event row db = .ok (answer, db')) : OcNext c db db' := by
  unfold ocCosign at h
  split at h
  · exact (quiet_ignored h).next
  · exact next_ocRescueCosign hrow hraw h
  · rename_i purpose _ _
    dsimp only at h
    split at h
    · exact (quiet_ignored h).next
    · rename_i hcan
      split at h
      · exact (quiet_ignored h).next
      · rename_i kind hkind
        obtain ⟨hkind, hpurpose⟩ := Option.filter_eq_some_iff.mp hkind
        obtain rfl : signPurposeFor kind = purpose := of_decide_eq_true hpurpose
        have hk : kind = .release ∨ row.order.settlementKind = some kind := by
          split at hkind
          · exact .inl (Option.some.inj hkind).symm
          · exact .inr hkind
        split at h
        · exact (quiet_ignored h).next
        · rename_i signerXonly hsigner
          obtain ⟨hsigner, hsender⟩ := Option.filter_eq_some_iff.mp hsigner
          have hsender := of_decide_eq_true hsender
          split at h
          · exact (quiet_ignored h).next
          · rename_i expected hexpected
            split at h
            · exact (quiet_ignored h).next
            · rename_i psbt hpsbt
              split at h
              · exact (quiet_reject h).next
              · rename_i sig leafScript hverify
                split at h
                · exact (quiet_ignored h).next
                · exact (quiet_ignored h).next
                · rename_i rawHex txid hcomplete
                  exact next_enterSettling hc hrow hk (by simpa using hcan) (hcos kind hsender)
                    (ht kind txid rawHex ⟨expected, signerXonly, psbt, sig, leafScript, hexpected,
                      hsigner, hpsbt, hverify, hcomplete⟩)
                    (hraw rawHex (completeSettlement_finalized hcomplete)) (accepted_ok h)

theorem next_withRow {handler : OcEvent → OcRow → OcDb → OcHandled}
    (hh : ∀ row, getOc row.order.orderId db = some row →
      (given (extractOrderId event.tags)).bind (getOc · db) = some row →
      handler event row db = .ok (answer, db') → OcNext c db db')
    (h : withRow event db handler = .ok (answer, db')) : OcNext c db db' := by
  unfold withRow at h
  split at h
  · exact (quiet_ignored h).next
  · rename_i orderId horder
    split at h
    · exact (quiet_ignored h).next
    · rename_i row hrow
      have hid := orderId_of_getOc hrow
      exact hh row (hid ▸ hrow) (by rw [horder, Option.bind_some, hrow]) h

/-- A request makes one of the changes. -/
theorem next_handleOc {action : OcAction} (hc : c.now = ctx.now)
    (hclaims : action = .claim → c.claims event.pubkey)
    (hcos : ∀ row kind, getOc row.order.orderId db = some row → action = .cosign →
      some event.pubkey = expectedSender row.order kind → c.cosigns row.order kind)
    (ht : ∀ o m kind txid rawHex, action = .cosign →
      Completes ctx.env event o m kind txid rawHex → c.completes o m kind txid rawHex)
    (hraw : ∀ rawHex, action = .cosign → Finalized ctx.env rawHex → c.finalizes rawHex)
    (htakes : ∀ row turn, (given (extractOrderId event.tags)).bind (getOc · db) = some row →
      action = turn.action → row.order.awaits event.pubkey turn →
      isPast (row.order.turnDeadline turn) (ctx.requestAt event) = false → c.takes row.order turn)
    (h : ctx.handleOc action event db = .ok (answer, db')) : OcNext c db db' := by
  unfold handleOc at h
  cases action with
  | orderRequest => exact (quiet_ocOrderRequest h).next
  | designatedOrderRequest => exact next_ocDesignatedOrderRequest h
  | claim => exact next_ocClaim hc (hclaims rfl) h
  | presig =>
    exact next_withRow (fun row hrow hev => next_ocPresig hc hrow (htakes row .presig hev rfl)) h
  | cosign =>
    exact next_withRow (fun row hrow _ => next_ocCosign hc hrow (fun kind => hcos row kind hrow rfl)
      (fun kind txid rawHex => ht _ _ kind txid rawHex rfl) fun rawHex => hraw rawHex rfl) h
  | dispute => exact next_withRow (fun row hrow _ => next_ocDispute hc hrow) h
  | remitRequest =>
    exact next_withRow (fun row hrow hev => next_ocRemit hc hrow (htakes row .remit hev rfl)) h
  | accountInfo =>
    exact next_withRow (fun row hrow hev => next_ocAccountInfo hc hrow (htakes row .account hev rfl)) h
  | cancelRequest => exact next_ocCancel hc h

/-! ## Commands -/

theorem next_ocCommand {cmd : OcCommand} {orderId : OrderId} {version : ℕ} {error : Option String}
    (hc : c.now = ctx.now)
    (hb : ∀ o m, Buildable ctx.env o m → c.builds o m)
    (hres : ∀ accountBad r, cmd = .accountDispute accountBad → getOc orderId db = some r →
      c.resolves r.order)
    (hasks : ∀ txid vout, cmd = .rescue txid vout → c.asks orderId (formatOutpoint ⟨txid, vout⟩))
    (h : ctx.ocCommand cmd orderId version db = .ok (error, db')) : OcNext c db db' := by
  unfold ocCommand at h
  split at h
  · obtain ⟨-, rfl⟩ := Prod.mk.inj (Except.ok.inj h)
    exact (Quiet.refl db).next
  · rename_i row hrow
    have hid := orderId_of_getOc hrow
    split at h
    · obtain ⟨-, rfl⟩ := Prod.mk.inj (Except.ok.inj h)
      exact (Quiet.refl db).next
    · unfold runOcCommand at h
      dsimp only at h
      cases cmd with
      | rule sponsorWins => exact next_decideSettlement hc hb h
      | accountDispute accountBad =>
        exact next_resolveAccountDispute hc (fun r hr => hres accountBad r rfl (hid ▸ hr)) h
      | resend =>
        dsimp only at h
        split at h
        · split at h
          · rename_i db₁ hsent
            obtain ⟨-, rfl⟩ := Prod.mk.inj (Except.ok.inj h)
            obtain ⟨psbt, -, rfl⟩ := Option.map_eq_some_iff.mp hsent
            exact (quiet_enqueue (by simp) _).next
          · obtain ⟨-, rfl⟩ := Prod.mk.inj (Except.ok.inj h)
            exact (Quiet.refl db).next
        · split at h
          · obtain ⟨⟨sent, db₁⟩, hsign, h⟩ := Except.bind_eq_ok_iff.mp h
            obtain ⟨-, rfl⟩ := Prod.mk.inj (Except.ok.inj h)
            exact (quiet_requestSettlementSignature hsign).next
          · obtain ⟨-, rfl⟩ := Prod.mk.inj (Except.ok.inj h)
            exact (Quiet.refl db).next
      | rescue txid vout =>
        dsimp only at h
        split at h
        · obtain ⟨-, rfl⟩ := Prod.mk.inj (Except.ok.inj h)
          exact (Quiet.refl db).next
        · rename_i utxo hutxo
          have hrescue := Except.ok.inj h
          obtain ⟨htxid, hvout⟩ : utxo.txid = txid ∧ utxo.vout = vout := by
            simpa using List.find?_some hutxo
          have hnext := next_requestRescue (c := c) ctx row.order.orderId utxo db (by
            rw [OcUtxo.outpoint, htxid, hvout, hid]
            exact hasks txid vout rfl)
          rw [hrescue] at hnext
          exact hnext

/-! ## The watcher -/

theorem next_transition {row : OcRow} {patch : OnchainOrder → OnchainOrder} {o : OnchainOrder}
    (hc : c.now = ctx.now) (hrow : getOc row.order.orderId db = some row)
    (hchange : OcChange c row.order row.ocMeta.record (patch row.order) row.ocMeta.record)
    (h : ctx.transition row patch db = .ok (o, db')) : OcNext c db db' := by
  rw [transition, ← hc] at h
  exact OcNext.update h (fun _ => rfl) fun r hr => by
    obtain rfl := Option.some.inj (hrow.symm.trans hr)
    exact hchange

theorem next_observeSpend {row : OcRow} {txid : String} {leaf : Option EscrowLeafName}
    (hc : c.now = ctx.now) (hrow : getOc row.order.orderId db = some row)
    (hact : c.acts row.order (.observeSpend txid leaf))
    (h : ctx.observeSpend row txid leaf db = .ok db') : OcNext c db db' := by
  unfold observeSpend at h
  split at h
  · rename_i hleaf
    subst hleaf
    obtain ⟨⟨swept, db₁⟩, hup, h⟩ := Except.bind_eq_ok_iff.mp h
    obtain rfl := Except.ok.inj h
    have hnext : OcNext c db db₁ := next_transition hc hrow (.sweep txid hact) hup
    exact hnext.quiet (quiet_applyOutcome _ _ _)
  · split at h
    · obtain rfl := Except.ok.inj h
      exact (Quiet.refl db).next
    · rename_i adopted hadopted
      split at h
      · rename_i hsettling
        obtain ⟨⟨o, db₁⟩, hup, rfl⟩ := Except.map_eq_ok_iff.mp h
        refine next_transition hc hrow ?_ hup
        have hchange := OcChange.adopt (c := c) (o := row.order) (m := row.ocMeta.record) txid leaf
          adopted row.order.settlingAt hadopted hact
        rw [← hsettling] at hchange
        exact hchange
      · obtain ⟨⟨o, db₁⟩, hup, rfl⟩ := Except.map_eq_ok_iff.mp h
        rw [← hc] at hup
        exact next_transition hc hrow (.adopt txid leaf adopted _ hadopted hact) hup

/-- The watcher does what it has decided on. -/
theorem next_execute {row : OcRow} {action : OnchainAction} (hc : c.now = ctx.now)
    (hb : ∀ o m, Buildable ctx.env o m → c.builds o m)
    (hrow : getOc row.order.orderId db = some row) (hact : c.acts row.order action)
    (h : ctx.execute row action db = .ok db') : OcNext c db db' := by
  unfold execute at h
  cases action with
  | idle | hold _ | anomaly _ | warn _ | disputeSoon =>
    obtain rfl := Except.ok.inj h
    exact (Quiet.refl db).next
  | fund outpoint confirmations priceKrw =>
    dsimp only at h
    split at h
    · obtain rfl := Except.ok.inj h
      exact (Quiet.refl db).next
    · split at h
      · obtain rfl := Except.ok.inj h
        exact (Quiet.refl db).next
      · obtain ⟨⟨o, db₁⟩, hup, rfl⟩ := Except.map_eq_ok_iff.mp h
        rw [← hc] at hup
        rename_i hpaid
        exact next_transition hc hrow (.fund outpoint confirmations priceKrw _ hact
          (not_le.mp hpaid)) hup
  | fold outpoint confirmations kind =>
    obtain ⟨⟨e, db₁⟩, hdecide, rfl⟩ := Except.map_eq_ok_iff.mp h
    exact next_decideSettlement hc hb hdecide
  | settle kind =>
    obtain ⟨⟨e, db₁⟩, hdecide, rfl⟩ := Except.map_eq_ok_iff.mp h
    exact next_decideSettlement hc hb hdecide
  | cancel =>
    obtain ⟨⟨o, db₁⟩, hup, h⟩ := Except.bind_eq_ok_iff.mp h
    obtain rfl := Except.ok.inj h
    have hnext : OcNext c db db₁ := next_transition hc hrow (.cancel (.inr hact)) hup
    exact hnext.quiet ((quiet_applyOutcome _ _ _).trans (quiet_dropSponsorCandidates _ _))
  | reorg =>
    obtain ⟨⟨o, db₁⟩, hup, rfl⟩ := Except.map_eq_ok_iff.mp h
    rw [← hc] at hup
    exact next_transition hc hrow (.reorg hact) hup
  | dispute =>
    obtain ⟨⟨o, db₁⟩, hup, rfl⟩ := Except.map_eq_ok_iff.mp h
    rw [← hc] at hup
    exact next_transition hc hrow (.dispute (.inr hact)) hup
  | confirmed =>
    dsimp only at h
    split at h
    · obtain rfl := Except.ok.inj h
      exact (Quiet.refl db).next
    · rename_i kind hkind
      obtain ⟨⟨o, db₁⟩, hup, h⟩ := Except.bind_eq_ok_iff.mp h
      obtain rfl := Except.ok.inj h
      have hnext : OcNext c db db₁ := next_transition hc hrow (.confirmed kind hkind hact) hup
      exact hnext.quiet (quiet_applyOutcome _ _ _)
  | observeSpend txid leaf => exact next_observeSpend hc hrow hact h
  | rebroadcast =>
    dsimp only at h
    split at h
    · rename_i outbox houtbox
      obtain rfl := Except.ok.inj h
      refine ⟨fun id => ?_, .again row outbox hrow houtbox
        (Written.broadcast ⟨fun id r hr => ⟨r, hr, by split <;> rfl⟩, fun _ _ _ hb => .inl hb⟩)⟩
      rw [cores_requestBroadcast]
      exact .same _
    · obtain rfl := Except.ok.inj h
      exact (Quiet.refl db).next

end OcCtx

theorem quiet_noteStrays (row : OcRow) (strays : List ChainUtxo) (db : OcDb) :
    Quiet db (noteStrays row strays db) := by
  unfold noteStrays
  dsimp only
  split
  · exact Quiet.refl db
  · exact quiet_updateOcMeta (fun _ => rfl) fun _ => rfl

namespace OcCtx

variable {P : Type} {ctx : OcCtx P} {c : OcCause} {db db' : OcDb}

theorem quiet_maybeResendSignature {row : OcRow}
    (h : ctx.maybeResendSignature row db = .ok db') : Quiet db db' := by
  unfold maybeResendSignature at h
  split at h
  · obtain rfl := Except.ok.inj h
    exact Quiet.refl db
  · split at h
    · obtain rfl := Except.ok.inj h
      exact Quiet.refl db
    · obtain ⟨⟨b, db₁⟩, hsign, rfl⟩ := Except.map_eq_ok_iff.mp h
      exact quiet_requestSettlementSignature hsign

theorem quiet_afterAction {orderId : OrderId} {action : OnchainAction} {facts : Facts}
    (h : ctx.afterAction orderId action facts db = .ok db') : Quiet db db' := by
  unfold afterAction at h
  split at h
  · obtain rfl := Except.ok.inj h
    exact Quiet.refl db
  · dsimp only at h
    refine Quiet.trans ?_ (quiet_maybeResendSignature h)
    split
    · split
      · exact quiet_noteStrays _ _ _
      · exact Quiet.refl db
    · exact Quiet.refl db

/-- A row is judged only if its version is the one that was asked about. -/
theorem next_applyFacts {startedAt : ℤ} {orderId : OrderId} {version : ℕ} {facts : Facts}
    (hc : c.now = ctx.now)
    (hb : ∀ o m, Buildable ctx.env o m → c.builds o m)
    (hact : ∀ row, getOc orderId db = some row → row.version = version →
      c.acts row.order (decideOnchainAction row.order (ctx.watchContext row facts db)))
    (h : ctx.applyFacts startedAt orderId version facts db = .ok db') : OcNext c db db' := by
  unfold applyFacts at h
  split at h
  · obtain rfl := Except.ok.inj h
    exact (Quiet.refl db).next
  · rename_i row hrow
    obtain ⟨hget, hversion⟩ := Option.filter_eq_some_iff.mp hrow
    have hid := orderId_of_getOc hget
    have hact := hact row hget (of_decide_eq_true hversion)
    split at h
    · split at h
      · obtain rfl := Except.ok.inj h
        exact (quiet_noteStrays _ _ _).next
      · obtain rfl := Except.ok.inj h
        exact (Quiet.refl db).next
    · dsimp only at h
      split at h
      · obtain ⟨db₁, hexec, h⟩ := Except.bind_eq_ok_iff.mp h
        exact (next_execute hc hb (hid ▸ hget) hact hexec).quiet (quiet_afterAction h)
      · obtain ⟨db₁, hsame, h⟩ := Except.bind_eq_ok_iff.mp h
        obtain rfl := Except.ok.inj hsame
        exact (quiet_afterAction h).next

theorem next_broadcastDone (orderId : OrderId) (txid : String) (rescueKey : Option String)
    (db : OcDb) (hm : c.marks) : OcNext c db (broadcastDone orderId txid rescueKey db) := by
  unfold broadcastDone
  split
  · exact (Quiet.refl db).next
  · rename_i key rescue hrescue
    obtain ⟨key', -, hkey⟩ := Option.bind_eq_some_iff.mp hrescue
    obtain ⟨rescue', hfound, heq⟩ := Option.map_eq_some_iff.mp hkey
    obtain ⟨rfl, rfl⟩ := Prod.mk.inj heq
    obtain ⟨row, hrow, hres⟩ := Option.bind_eq_some_iff.mp hfound
    obtain rfl := orderId_of_getOc hrow
    exact next_updateOcMeta (fun m => setRescue_record _ _ m)
      (.marked row _ txid _ hrow hres hm (sent_updateOcMeta _ _ db))

end OcCtx

end LnPay
