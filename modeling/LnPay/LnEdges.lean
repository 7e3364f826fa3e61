/-
# What a Lightning transaction can do

Every transaction of the Lightning track is a sequence of the steps `LnEdge`,
each about one order: the rows it inserts and deletes, the invoices it plans and
disposes of, the writes to the hold table, and the changes of the order's row,
which `OrderStep` lists with what the source has checked before each.

`*_leads` shows it for each function of the source once; every invariant of the
track is then proved from the list.
-/
import LnPay.HoldAgreement
import LnPay.LnDaemon

namespace LnPay

/-- What the steps of a transaction are relative to: the time, the node, which orders have no
payment that may still go out, which hold rows may be written and to what, whether claims are taken,
which deposits may be given up, which escrows may be closed as unpaid, whose close or payout may come
to its end, which changes of a state may be made, whether closes may be begun, for which orders a
sponsor's invoice may be taken, and which block heights may be noted. -/
structure EdgeCtx where
  env : LnEnv
  now : ℤ
  node : LnNode
  idle : OrderId → Prop
  touch : HoldRow → HoldRow → Prop
  claims : Prop
  drops : Hash → Prop
  unpaid : Hash → Prop
  closes : OrderId → Prop
  pays : OrderId → Prop
  moves : OrderState → OrderState → Prop
  begins : Prop
  gate : OrderId → Prop
  notes : ℕ → Prop

/-- The context of a transaction at a price. -/
def EdgeCtx.ctx (c : EdgeCtx) (price : Option ℚ) : LnCtx := ⟨c.env, c.now, price⟩

/-- The daemon may be asked to pay the order. -/
def LnOrderRow.payable (o : LnOrderRow) : Prop := o.state = .paid ∨ o.state = .sponsorWins

/-- The invoice reads as one over exactly the order's payout. -/
def LnOrderRow.Exact (env : LnEnv) (o : LnOrderRow) (bolt11 : String) : Prop :=
  bolt11 ≠ "" ∧ ∃ info, readBolt11 env bolt11 = some info ∧ o.payoutSat = some info.amountSat ∧
    0 < info.amountSat

/-- The changes of an order's row, with what has been checked before each. -/
inductive OrderStep (c : EdgeCtx) (db : LnDb) (o : LnOrderRow) : LnOrderRow → Prop
  | claim (sponsor : Pubkey) (hs : o.state = .requested) (hp : o.pendingClose = none)
      (hc : c.claims) (hm : c.moves .requested .claimed) :
      OrderStep c db o
        { o with state := .claimed, sponsor := some sponsor, claimedAt := some c.now }
  | revert (hs : o.state = .claimed) (hp : o.pendingClose = none)
      (hu : ∀ dep, LnCtx.sponsorDepositOf o db = some dep → c.drops dep.paymentHash)
      (hm : c.moves .claimed .requested) :
      OrderStep c db o { o with
        state := .requested, sponsor := none, claimedAt := none, payoutSat := none
        escrowHash := none, sponsorDepositHash := none }
  | approve (payoutSat : ℕ) (r : HoldRow) (hs : o.state = .claimed) (hp : o.pendingClose = none)
      (he : o.escrowHash = none) (hpos : 0 < payoutSat)
      (hr : db.holds.find r.paymentHash = some r) (hpurpose : r.purpose = .lnEscrow)
      (hid : r.orderId = o.orderId) (hamount : r.amountSat = computeEscrowSat payoutSat)
      (hcr : r.status = .creating) :
      OrderStep c db o
        { o with payoutSat := some payoutSat, escrowHash := some r.paymentHash }
  | verify (hash : Hash) (bolt11 : String) (hs : o.state = .claimed) (hp : o.pendingClose = none)
      (he : o.escrowHash = some hash) (ht : ∃ r r', r.status = .creating ∧ c.touch r r')
      (hr : ∃ r, db.holds.find hash = some r ∧ r.status = .opened)
      (hm : c.moves .claimed .verified) :
      OrderStep c db o { o with state := .verified, escrowBolt11 := some bolt11 }
  | unapprove (hs : o.state = .claimed) (ht : ∃ r r', r.status = .creating ∧ c.touch r r') :
      OrderStep c db o { o with escrowHash := none, payoutSat := none }
  | sponsorDeposit (hash : Hash) (hs : o.state = .claimed) (hp : o.pendingClose = none) :
      OrderStep c db o { o with sponsorDepositHash := some hash }
  | escrowed (deadline : ℤ) (hs : o.state = .verified) (hp : o.pendingClose = none)
      (hm : c.moves .verified .escrowed) :
      OrderStep c db o { o with state := .escrowed, invoiceDeadline := some deadline }
  | firstInvoice (bolt11 : String) (hs : o.state = .escrowed) (hp : o.pendingClose = none)
      (hx : o.Exact c.env bolt11) (hm : c.moves .escrowed .invoiced) (hg : c.gate o.orderId) :
      OrderStep c db o { o with state := .invoiced, sponsorInvoice := some bolt11 }
  | replaceInvoice (bolt11 : String)
      (hs : o.state = .invoiced ∨ o.state = .remitted ∨
        (o.payable ∧ o.disbursed = false ∧ o.payoutError = some payoutInvoiceExpired))
      (hp : o.pendingClose = none) (hx : o.Exact c.env bolt11) (hg : c.gate o.orderId) :
      OrderStep c db o { o with sponsorInvoice := some bolt11, payoutError := none }
  | account (sentAt : ℤ) (commitment : String) (hs : o.state = .invoiced ∨ o.state = .remitted) :
      OrderStep c db o
        { o with accountSentAt := some sentAt, accountCommitment := some commitment }
  | remit (hs : o.state = .invoiced) (hp : o.pendingClose = none)
      (hm : c.moves .invoiced .remitted) :
      OrderStep c db o { o with state := .remitted, remittedAt := some c.now }
  | escrowSettled : OrderStep c db o { o with escrowSettled := true }
  | payoutError (error : String) (hm : isManualPayout o.payoutError = false)
      (hne : error ≠ payoutInvoiceExpired) (hnm : isManualPayout (some error) = false) :
      OrderStep c db o { o with payoutError := some error }
  | payoutExpired (bolt11 : String) (info : Bolt11Info) (hb : o.sponsorInvoice = some bolt11)
      (hread : readBolt11 c.env bolt11 = some info) (hexp : info.expiresAt ≤ c.now + 30)
      (hidle : c.idle o.orderId) (hm : isManualPayout o.payoutError = false) (hpay : o.payable) :
      OrderStep c db o { o with payoutError := some payoutInvoiceExpired }
  | payoutManual (mark : String) (hm : isManualPayout (some mark) = true) (hpay : o.payable) :
      OrderStep c db o { o with payoutError := some mark }
  | disbursed (hend : c.pays o.orderId) :
      OrderStep c db o { o with disbursed := true, payoutError := none }
  | markDisbursed (hm : isManualPayout o.payoutError = true) :
      OrderStep c db o { o with disbursed := true }
  | abandon (reason : LnCloseReason) (hp : o.pendingClose = some reason)
      (hr : reason.rule.escrow = .settle) (hend : c.closes o.orderId)
      (hlost : ∀ h, o.escrowHash = some h → ¬ Ended c.node h .settled) :
      OrderStep c db o { o with pendingClose := none }
  | finish (reason : LnCloseReason) (hp : o.pendingClose = some reason) (hend : c.closes o.orderId)
      (hsettled : reason.rule.escrow = .settle → ∃ r, o.escrowHash = some r.paymentHash ∧
        db.holds.find r.paymentHash = some r ∧ r.status = .settled) :
      OrderStep c db o { o with
        state := reason.rule.terminal, closeReason := some reason, pendingClose := none }

/-- The two reasons that say the escrow was not paid. -/
def LnCloseReason.isUnpaid (r : LnCloseReason) : Prop :=
  r = .cancelUnpaidEscrow ∨ r = .expiredUnpaidEscrow

instance : DecidablePred LnCloseReason.isUnpaid :=
  fun r => inferInstanceAs (Decidable (r = .cancelUnpaidEscrow ∨ r = .expiredUnpaidEscrow))

/-- The ledger with an order's row changed. -/
def setOrder (now : ℤ) (id : OrderId) (patch : LnOrderRow → LnOrderRow) (db : LnDb) : LnDb :=
  { db with track := { db.track with
    orders := db.track.orders.update id (LnOrderRow.stamp patch now)
      (LnOrderRow.stamp_orderId patch now) } }

/-- What a track plans an invoice for: a draft's deposit, or a claimed order's deposit or escrow. -/
def Plannable (db : LnDb) (p : HoldPlan) : Prop :=
  (p.purpose = .lnCustomerDeposit ∧
      ∃ d, getDraft p.orderId db = some d ∧ p.party = d.customer) ∨
    ∃ o, getOrder p.orderId db = some o ∧ o.state = .claimed ∧ o.pendingClose = none ∧
      ((p.purpose = .lnSponsorDeposit ∧ o.sponsor = some p.party) ∨
        (p.purpose = .lnEscrow ∧ p.party = o.customer))

/-- One step of a transaction, about the order `id`. -/
inductive LnEdge (c : EdgeCtx) (id : OrderId) : LnDb → LnDb → Prop
  | insertOrder {db : LnDb} (o : NewOrder) (orders : KeyedTable LnOrderRow.orderId)
      (hid : o.orderId = id) (hd : getDraft id db = none)
      (hins : db.track.orders.insert (o.row c.now) = some orders) :
      LnEdge c id db { db with track := { db.track with orders := orders } }
  | insertDraft {db : LnDb} (d : LnDraftRow) (drafts : KeyedTable LnDraftRow.orderId)
      (hid : d.orderId = id) (ho : getOrder id db = none)
      (hins : db.track.drafts.insert d = some drafts) :
      LnEdge c id db { db with track := { db.track with drafts := drafts } }
  | deleteDraft {db : LnDb}
      (hu : ∀ d dep, getDraft id db = some d →
        currentHold .lnCustomerDeposit id d.customer db = some dep → c.drops dep.paymentHash) :
      LnEdge c id db (deleteDraft id db)
  | plan {db : LnDb} (p : HoldPlan) (hash : Hash) (attempt : ℕ)
      (holds : KeyedTable HoldRow.paymentHash) (hid : p.orderId = id)
      (hp : Plannable db p) (hd : p.Derives c.env.keys db hash attempt)
      (hins : db.holds.insert (p.row hash attempt c.now) = some holds) :
      LnEdge c id db ({ db with holds := holds }.enqueue (.holdCreate hash))
  | planOther {db : LnDb} (p : HoldPlan) (hash : Hash) (attempt : ℕ)
      (holds : KeyedTable HoldRow.paymentHash) (hid : p.orderId = id)
      (hpurpose : p.purpose ∉ lnHoldPurposes) (hd : p.Derives c.env.keys db hash attempt)
      (hins : db.holds.insert (p.row hash attempt c.now) = some holds) :
      LnEdge c id db ({ db with holds := holds }.enqueue (.holdCreate hash))
  | dispose {db : LnDb} (h : Hash) (a : DisposeAction)
      (hsettle : a = .settle → ∃ o, getOrder id db = some o ∧ o.state = .remitted ∧
        o.pendingClose = none ∧ o.escrowHash = some h) :
      LnEdge c id db (dispose h a db)
  | requestPayout {db : LnDb} : LnEdge c id db (LnCtx.requestPayout id db)
  | setHold {db db' : LnDb}
      (h : HoldStep c.node c.now (fun r r' => c.touch r r' ∧ r.orderId = id) db db') :
      LnEdge c id db db'
  | updateOrder {db : LnDb} (o : LnOrderRow) (patch : LnOrderRow → LnOrderRow)
      (ho : getOrder id db = some o) (hs : OrderStep c db o (patch o)) :
      LnEdge c id db (setOrder c.now id patch db)
  | beginClose {db : LnDb} (o : LnOrderRow) (reason : LnCloseReason)
      (ho : getOrder id db = some o) (hp : o.pendingClose = none)
      (ht : canTransition o.state reason.rule.terminal = true)
      (hu : reason.isUnpaid → ∀ h, o.escrowHash = some h → c.unpaid h) (hb : c.begins) :
      LnEdge c id db
        ((setOrder c.now id (fun o => { o with pendingClose := some reason }) db).enqueue
          (.own (.close id)))

variable {c : EdgeCtx} {id : OrderId} {db : LnDb} {price : Option ℚ}

theorem getOrder_orderId {o : LnOrderRow} (h : getOrder id db = some o) : o.orderId = id :=
  KeyedTable.key_of_find h

/-! ## The store -/

/-- `updateOrder` of an order that is there is one step. -/
theorem updateOrder_leads {o : LnOrderRow} {patch : LnOrderRow → LnOrderRow}
    (ho : getOrder id db = some o) (hs : OrderStep c db o (patch o)) :
    Leads (LnEdge c id) db (updateOrder c.now id patch db) := by
  rw [updateOrder, ho]
  exact .single (.updateOrder o patch ho hs)

theorem insertOrder_leads {o : NewOrder} (hid : o.orderId = id) (hd : getDraft id db = none) :
    Leads (LnEdge c id) db (insertOrder c.now o db) := by
  unfold insertOrder
  split
  · exact .error
  · exact .single (.insertOrder o _ hid hd ‹_›)

@[simp] theorem getDraft_deleteDraft : getDraft id (deleteDraft id db) = none :=
  KeyedTable.find_erase_self _ _

/-- The draft's deposit, if there is one, may be given up. -/
def DraftDroppable (c : EdgeCtx) (id : OrderId) (db : LnDb) : Prop :=
  ∀ d dep, getDraft id db = some d →
    currentHold .lnCustomerDeposit id d.customer db = some dep → c.drops dep.paymentHash

/-- The draft goes and the order takes its place. -/
theorem insertOrder_deleteDraft_leads {o : NewOrder} (hid : o.orderId = id)
    (hu : DraftDroppable c id db) :
    Leads (LnEdge c id) db (insertOrder c.now o (deleteDraft id db)) :=
  .head (.deleteDraft hu) (insertOrder_leads hid getDraft_deleteDraft)

/-- A disposal that gives money back is always possible. -/
theorem cancel_leads {h : Hash} :
    Leads (LnEdge c id) db (.ok (dispose h .cancel db) : Except Abort LnDb) :=
  .single (.dispose h .cancel (fun h => by cases h))

/-! ## Flow -/

/-- `planLnHold`, for what may be planned. -/
theorem planLnHold_leads {purpose : HoldPurpose} {party : Pubkey} {amountSat : ℕ}
    {payBy holdUntil : ℤ}
    (hp : ∀ p : HoldPlan, p.purpose = purpose → p.orderId = id → p.party = party →
      Plannable db p) :
    Leads (LnEdge c id) db
      (((c.ctx price).planLnHold purpose id party amountSat payBy holdUntil db).map Prod.snd) := by
  intro db' h
  obtain ⟨⟨row, db₁⟩, hplan, rfl⟩ := Except.map_eq_ok_iff.mp h
  obtain ⟨hash, attempt, holds, rfl, hd, hins, hdb⟩ := plan_spec hplan
  subst hdb
  exact .single (.plan _ hash attempt holds rfl (hp _ rfl rfl rfl) hd hins)

theorem planCustomerDeposit_leads {draft : LnDraftRow} {pct : ℚ} (hid : draft.orderId = id)
    (hd : getDraft id db = some draft) (hu : DraftDroppable c id db) :
    Leads (LnEdge c id) db ((c.ctx price).planCustomerDeposit draft pct db) := by
  subst hid
  unfold LnCtx.planCustomerDeposit
  split
  · exact .refl
  · dsimp only
    split
    · exact .single (.deleteDraft hu)
    · refine .bindPair (planLnHold_leads ?_) fun _ _ _ => .refl
      rintro p hp ho hparty
      exact .inl ⟨hp, draft, by rw [ho, hd], hparty⟩

theorem planSponsorDeposit_leads {order : LnOrderRow} {pct : ℚ} (hid : order.orderId = id)
    (ho : ∃ o, getOrder id db = some o ∧ o.state = .claimed ∧ o.pendingClose = none ∧
      o.sponsor = order.sponsor) :
    Leads (LnEdge c id) db ((c.ctx price).planSponsorDeposit order pct db) := by
  subst hid
  unfold LnCtx.planSponsorDeposit
  split
  · rename_i sponsor basis hsponsor _
    refine .bindPair (planLnHold_leads ?_) fun _ _ _ => .refl
    rintro p hp hid hparty
    obtain ⟨o, ho, hs, hpc, heq⟩ := ho
    exact .inr ⟨o, by rw [hid, ho], hs, hpc, .inl ⟨hp, by rw [heq, hsponsor, hparty]⟩⟩
  · exact .refl

theorem foldl_dispose_leads (rows : List HoldRow) :
    Relation.ReflTransGen (LnEdge c id) db
      (rows.foldl (fun db inv => dispose inv.paymentHash .cancel db) db) := by
  induction rows generalizing db with
  | nil => exact .refl
  | cons inv rows ih =>
    exact .head (.dispose inv.paymentHash .cancel (fun h => by cases h)) ih

theorem getOrder_foldl_dispose (rows : List HoldRow) (id' : OrderId) :
    getOrder id' (rows.foldl (fun db inv => dispose inv.paymentHash .cancel db) db) =
      getOrder id' db := by
  induction rows generalizing db with
  | nil => rfl
  | cons inv rows ih =>
    rw [List.foldl_cons, ih, getOrder, getOrder, dispose_track]

theorem holds_foldl_dispose (rows : List HoldRow) :
    (rows.foldl (fun db inv => dispose inv.paymentHash .cancel db) db).holds = db.holds := by
  induction rows generalizing db with
  | nil => rfl
  | cons inv rows ih => rw [List.foldl_cons, ih, dispose_holds]

theorem currentHold_congr {db' : LnDb} (h : db'.holds = db.holds) (purpose : HoldPurpose)
    (party : Pubkey) : currentHold purpose id party db' = currentHold purpose id party db := by
  rw [currentHold, currentHold, h]

theorem sponsorDepositOf_congr {db' : LnDb} (h : db'.holds = db.holds) (o : LnOrderRow) :
    LnCtx.sponsorDepositOf o db' = LnCtx.sponsorDepositOf o db := by
  unfold LnCtx.sponsorDepositOf
  split
  · exact currentHold_congr h _ _
  · rfl

theorem revertClaim_leads {order : LnOrderRow} (ho : getOrder id db = some order)
    (hs : order.state = .claimed) (hp : order.pendingClose = none)
    (hu : ∀ dep, LnCtx.sponsorDepositOf order db = some dep → c.drops dep.paymentHash)
    (hm : c.moves .claimed .requested) :
    Leads (LnEdge c id) db ((c.ctx price).revertClaim order db) := by
  intro db' h
  obtain rfl := getOrder_orderId ho
  refine (foldl_dispose_leads _).trans (updateOrder_leads ?_ (.revert hs hp ?_ hm) db' h)
  · rw [getOrder_foldl_dispose, ho]
  · intro dep hdep
    rw [sponsorDepositOf_congr (holds_foldl_dispose _)] at hdep
    exact hu dep hdep

/-- `beginClose` in a state from which the reason's end may be reached. -/
theorem beginClose_leads {order : LnOrderRow} {reason : LnCloseReason}
    (ho : getOrder id db = some order)
    (hu : reason.isUnpaid → ∀ h, order.escrowHash = some h → c.unpaid h) (hb : c.begins) :
    Leads (LnEdge c id) db (((c.ctx price).beginClose order reason db).map Prod.snd) := by
  obtain rfl := getOrder_orderId ho
  unfold LnCtx.beginClose
  split
  · exact .refl
  · rename_i hopen
    split
    · exact .error
    · rename_i ht
      rw [updateOrder, ho]
      refine .single (.beginClose order reason ho ?_ (by simpa using ht) hu hb)
      simpa using (not_or.mp hopen).1

/-- What is known of an order that can be approved. -/
theorem approveBlocker_eq_none {ctx : LnCtx} {order : LnOrderRow}
    (h : ctx.approveBlocker order db = none) : order.state = .claimed ∧
      order.pendingClose = none ∧ order.escrowHash = none ∧
      (LnCtx.sponsorDepositRequired order db = true → order.sponsorDepositHash ≠ none) := by
  unfold LnCtx.approveBlocker at h
  split at h
  · cases h
  · split at h
    · cases h
    · split at h
      · cases h
      · split at h
        · cases h
        · rename_i h₁ h₂ h₃ h₄
          refine ⟨not_not.mp (not_or.mp h₁).1, by simpa using h₂, by simpa using h₃, ?_⟩
          exact fun hr hn => h₄ ⟨hr, hn⟩

theorem approve_leads {order : LnOrderRow} (ho : getOrder id db = some order) :
    Leads (LnEdge c id) db (((c.ctx price).approve order db).map Prod.snd) := by
  obtain rfl := getOrder_orderId ho
  unfold LnCtx.approve
  split
  · exact .refl
  · rename_i hfree
    obtain ⟨hs, hp, he, -⟩ := approveBlocker_eq_none hfree
    split
    · exact .refl
    · rename_i payoutSat hpay
      obtain ⟨btc, -, hsat⟩ := Option.bind_eq_some_iff.mp hpay
      intro db' h
      obtain ⟨⟨e, db₂⟩, hrun, hsnd⟩ := Except.map_eq_ok_iff.mp h
      obtain ⟨⟨inv, db₁⟩, hplan, hrun⟩ := Except.bind_eq_ok_iff.mp hrun
      obtain ⟨db₃, hupd, hrun⟩ := Except.bind_eq_ok_iff.mp hrun
      cases hrun
      obtain rfl : db₂ = db' := hsnd
      have hstep := planLnHold_leads (c := c) (fun p hpurpose hid hparty => .inr
        ⟨order, by rw [hid, ho], hs, hp, .inr ⟨hpurpose, hparty⟩⟩) db₁
        (Except.map_eq_ok_iff.mpr ⟨_, hplan, rfl⟩)
      obtain ⟨hash, attempt, holds, rfl, -, hins, rfl⟩ := plan_spec hplan
      refine hstep.trans (updateOrder_leads (o := order) ?_
        (.approve payoutSat _ hs hp he (pos_of_computePayoutSat hsat) ?_ rfl rfl rfl rfl) _ hupd)
      · rw [getOrder, Db.enqueue_track]
        exact ho
      · rw [Db.enqueue_holds, KeyedTable.find_insert hins, if_pos rfl]

/-! ## The hold hooks -/

section Hooks

variable (hu : ∀ h, c.drops h)
include hu

omit hu in
theorem holdCreated_leads {inv : HoldRow} (hid : inv.orderId = id)
    (ht : ∃ r r', r.status = .creating ∧ c.touch r r')
    (hr : db.holds.find inv.paymentHash = some inv) (hs : inv.status = .opened)
    (hm : c.moves .claimed .verified) :
    Leads (LnEdge c id) db ((c.ctx price).holdCreated inv db) := by
  subst hid
  unfold LnCtx.holdCreated
  split
  · split
    · exact .refl
    · exact cancel_leads
  · split
    · split
      · exact .refl
      · exact cancel_leads
    · exact cancel_leads
  · split
    · rename_i order ho
      split
      · rename_i h
        rw [getOrder_orderId ho]
        exact updateOrder_leads ho (.verify _ _ h.1 h.2.2 h.2.1 ht ⟨inv, hr, hs⟩ hm)
      · exact cancel_leads
    · exact cancel_leads
  · exact .refl

theorem holdCreateFailed_leads {inv : HoldRow} (hid : inv.orderId = id)
    (ht : ∃ r r', r.status = .creating ∧ c.touch r r') (hm : c.moves .claimed .requested) :
    Leads (LnEdge c id) db ((c.ctx price).holdCreateFailed inv db) := by
  subst hid
  unfold LnCtx.holdCreateFailed
  split
  · exact .single (.deleteDraft fun _ _ _ _ => hu _)
  · split
    · rename_i order ho
      split
      · rename_i h
        exact revertClaim_leads ho h.1 h.2.2 (fun _ _ => hu _) hm
      · exact .refl
    · exact .refl
  · split
    · rename_i order ho
      split
      · rename_i h
        rw [getOrder_orderId ho]
        exact updateOrder_leads ho (.unapprove h.1 ht)
      · exact .refl
    · exact .refl
  · exact .refl

theorem holdAccepted_leads {inv : HoldRow} (hid : inv.orderId = id)
    (hm : c.moves .verified .escrowed) :
    Leads (LnEdge c id) db ((c.ctx price).holdAccepted inv db) := by
  subst hid
  unfold LnCtx.holdAccepted
  split
  · unfold LnCtx.onCustomerDepositAccepted
    split
    · exact cancel_leads
    · rename_i draft hd
      split
      · exact cancel_leads
      · have hkey : draft.orderId = inv.orderId := KeyedTable.key_of_find hd
        rw [hkey]
        exact insertOrder_deleteDraft_leads rfl fun _ _ _ _ => hu _
  · unfold LnCtx.onSponsorDepositAccepted
    split
    · exact cancel_leads
    · rename_i order ho
      split
      · exact cancel_leads
      · rename_i h
        simp only [not_or, not_not, Option.not_isSome_iff_eq_none] at h
        rw [getOrder_orderId ho]
        exact updateOrder_leads ho (.sponsorDeposit _ h.1 h.2.2)
  · unfold LnCtx.onEscrowAccepted
    split
    · exact cancel_leads
    · rename_i order ho
      split
      · exact cancel_leads
      · split
        · exact .refl
        · rename_i hp
          split
          · exact .refl
          · rename_i hs
            simp only [not_or, Option.not_isSome_iff_eq_none] at hp
            rw [getOrder_orderId ho]
            exact updateOrder_leads ho (.escrowed _ (not_not.mp hs) hp.1 hm)
  · exact .refl

theorem holdNodeCancelled_leads {before : HoldRow} (hid : before.orderId = id)
    (hun : c.unpaid before.paymentHash) (hm : c.moves .claimed .requested) (hb : c.begins) :
    Leads (LnEdge c id) db ((c.ctx price).holdNodeCancelled before db) := by
  subst hid
  unfold LnCtx.holdNodeCancelled
  split
  · exact .single (.deleteDraft fun _ _ _ _ => hu _)
  · split
    · rename_i order ho
      split
      · rename_i h
        exact revertClaim_leads ho h.1 h.2.2.2 (fun _ _ => hu _) hm
      · exact .refl
    · exact .refl
  · split
    · rename_i order ho
      split
      · exact .refl
      · rename_i hmine
        have hmine : order.escrowHash = some before.paymentHash := not_not.mp (not_or.mp hmine).1
        have hunpaid : ∀ h, order.escrowHash = some h → c.unpaid h := by
          intro h hh
          obtain rfl := Option.some.inj (hmine.symm.trans hh)
          exact hun
        split
        · exact .bindPair (beginClose_leads ho (fun _ => hunpaid) hb) fun _ _ _ => .refl
        · split
          · split
            · exact .bindPair (beginClose_leads ho (fun _ => hunpaid) hb) fun _ _ _ => .refl
            · exact .refl
          · exact .refl
    · exact .refl
  · exact .refl

omit hu in
theorem holdDisposed_leads {before : HoldRow} (final : HoldFinal) (via : DisposedVia)
    (hid : before.orderId = id) :
    Leads (LnEdge c id) db ((c.ctx price).holdDisposed before final via db) := by
  subst hid
  unfold LnCtx.holdDisposed
  split
  · exact .refl
  · split
    · rename_i order ho
      split
      · rw [getOrder_orderId ho]
        exact updateOrder_leads ho .escrowSettled
      · exact .refl
    · exact .refl

end Hooks

end LnPay
