/-
# Every reachable world is sound

`Sound` is the invariant of the Lightning track over all runs: the ledger's
invariant, and what is known of the running effect and of a lookup on its way.

`LnWorld.context` is what a transaction begun by an input may do, and
`step_moved` says that every step of the world changes the ledger by edges of
that context only; the invariants of the later modules rest on it.
-/
import LnPay.LnRuns
import LnPay.LnClock

namespace LnPay

variable {env : LnEnv} {w w' : LnWorld} {i : LnInput}

/-! ## The context of a step -/

/-- The effect a step takes a turn of. -/
def LnWorld.effectOf (w : LnWorld) : LnInput → Option (Effect LnEffect)
  | .start e => some e
  | .resume => w.running.map LnRunning.effect
  | _ => none

/-- No payment the daemon has begun for the order is made or may still be. -/
def Idle (payments : List Payment) (id : OrderId) : Prop :=
  ∀ p ∈ payments, p.orderId = some id → p.status = .failed

/-- A deposit that the clock gives up: a draft or a claim waits for it, and it is overdue on
record. -/
def DepositOverdue (env : LnEnv) (now : ℤ) (db : LnDb) (h : Hash) : Prop :=
  (∃ d dep, getDraft d.orderId db = some d ∧
    currentHold .lnCustomerDeposit d.orderId d.customer db = some dep ∧ dep.paymentHash = h ∧
      LnCtx.overdue ⟨env, now, none⟩ dep = true) ∨
    ∃ o dep, getOrder o.orderId db = some o ∧ AwaitsDeposit o db ∧
      LnCtx.sponsorDepositOf o db = some dep ∧ dep.paymentHash = h ∧
        LnCtx.overdue ⟨env, now, none⟩ dep = true

/-- An escrow that the clock gives up: a verified order waits for it, and it is overdue on record,
or the order is at its end. -/
def EscrowOverdue (env : LnEnv) (now startedAt : ℤ) (height : Option ℕ) (db : LnDb) (h : Hash) :
    Prop :=
  ∃ o, getOrder o.orderId db = some o ∧ o.state = .verified ∧ o.pendingClose = none ∧
    o.escrowHash = some h ∧
    ((∃ r, db.holds.find h = some r ∧ LnCtx.overdue ⟨env, now, none⟩ r = true) ∨
      expiring now (catchupWarmupSec ≤ now - startedAt) height o db)

/-- The change of an order's state that a step may make, besides the end of a close. -/
def LnWorld.moves (w : LnWorld) : LnInput → OrderState → OrderState → Prop
  | .request action _ _ => action.moves
  | .command _ _ _ _ | .clock _ _ => fun a b => a = .claimed ∧ b = .requested
  | .observe => fun a b => (a = .verified ∧ b = .escrowed) ∨ (a = .claimed ∧ b = .requested)
  | i => fun a b => (∃ h, w.effectOf i = some (.holdCreate h)) ∧ a = .claimed ∧
      (b = .verified ∨ b = .requested)

/-- What the transaction of a step may do. -/
def LnWorld.context (env : LnEnv) (w : LnWorld) (i : LnInput) : EdgeCtx where
  env := env
  now := w.now
  node := w.node
  idle := Idle w.payments
  touch r r' := (i = .observe ∧ r.status ≠ .creating ∧
      ∃ p, w.polled = some p ∧ r.paymentHash = p.paymentHash ∧
        (r'.htlcExpiryHeight = r.htlcExpiryHeight ∨
          ∃ l, p.lookup = some l ∧ r'.htlcExpiryHeight = l.htlcExpiryHeight)) ∨
    ((w.effectOf i).isSome ∧ r'.status ≠ .accepted ∧ r'.htlcExpiryHeight = r.htlcExpiryHeight)
  claims := ∃ action event price, i = .request action event price
  drops h := ∀ height price, i = .clock height price → DepositOverdue env w.now w.db h
  unpaid h := (∃ height price, i = .clock height price ∧
      EscrowOverdue env w.now w.startedAt height w.db h) ∨
    (i = .observe ∧ ∃ inv, w.node h = some inv ∧ inv.state = .cancelled)
  closes id := w.effectOf i = some (.own (.close id))
  pays id := w.effectOf i = some (.own (.payout id))
  moves := w.moves i
  begins := w.effectOf i = none
  gate id := ∃ event price o, i = .request .sponsorInvoice event price ∧
    getOrder id w.db = some o ∧
    ((o.state = .escrowed ∨ o.state = .invoiced) → LnCtx.escrowEndingSoon o w.db = false)
  notes height := ∃ price, i = .clock (some height) price

/-- A change of the ledger that no transaction of the track makes: an effect is taken off the queue,
the settings or the height are written. -/
structure Prepared (db db' : LnDb) : Prop where
  holds : db'.holds = db.holds
  orders : db'.track.orders = db.track.orders
  drafts : db'.track.drafts = db.track.drafts
  effects : ∀ e ∈ db'.effects, e ∈ db.effects

theorem Prepared.refl (db : LnDb) : Prepared db db := ⟨rfl, rfl, rfl, fun _ h => h⟩

theorem prepared_finish (e : Effect LnEffect) (db : LnDb) : Prepared db (db.finish e) :=
  ⟨rfl, rfl, rfl, fun _ h => Db.mem_of_mem_finish h⟩

theorem prepared_recordHeight (height : Option ℕ) (db : LnDb) :
    Prepared db (LnCtx.recordHeight height db) := by
  cases height <;> exact ⟨rfl, rfl, rfl, fun _ h => h⟩

/-- The height on record is as before, or one that may be noted. -/
def HeightNoted (c : EdgeCtx) (db db' : LnDb) : Prop :=
  db'.track.height = db.track.height ∨ ∃ height, c.notes height ∧ db'.track.height = some height

/-- The ledger after a step: prepared, then changed by edges. -/
def Moved (c : EdgeCtx) (db db' : LnDb) : Prop :=
  ∃ db₁, (Prepared db db₁ ∧ HeightNoted c db db₁) ∧ Relation.ReflTransGen (LnMove c) db₁ db'

theorem Moved.refl (c : EdgeCtx) (db : LnDb) : Moved c db db := ⟨db, ⟨.refl db, .inl rfl⟩, .refl⟩

theorem Prepared.moved {c : EdgeCtx} {db db' : LnDb} (h : Prepared db db')
    (hh : HeightNoted c db db') : Moved c db db' :=
  ⟨db', ⟨h, hh⟩, .refl⟩

/-- A transaction that leads by edges moves the ledger by edges, rolled back or not. -/
theorem moved_transact {c : EdgeCtx} {tx : LnDb → Except Abort LnDb}
    (h : Leads (LnMove c) w.db (tx w.db)) : Moved c w.db (w.transact tx).db := by
  unfold LnWorld.transact
  split
  · rename_i db hdb
    exact ⟨w.db, ⟨.refl _, .inl rfl⟩, h db hdb⟩
  · exact .refl _ _

/-- A property that preparing and every edge keep is kept by a step. -/
theorem Moved.keeps {c : EdgeCtx} {db db' : LnDb} (h : Moved c db db') {P : LnDb → Prop}
    (hprep : ∀ a b, Prepared a b → P a → P b) (hmove : ∀ a b, LnMove c a b → P a → P b)
    (hP : P db) : P db' := by
  obtain ⟨db₁, ⟨hp, -⟩, hm⟩ := h
  exact hm.keeps hmove (hprep _ _ hp hP)

theorem Prepared.getOrder_eq {db db' : LnDb} (h : Prepared db db') (id : OrderId) :
    getOrder id db' = getOrder id db := by
  rw [getOrder, getOrder, h.orders]

theorem Prepared.getDraft_eq {db db' : LnDb} (h : Prepared db db') (id : OrderId) :
    getDraft id db' = getDraft id db := by
  rw [getDraft, getDraft, h.drafts]

theorem LateEscrow.prepared {db db' : LnDb} (hp : Prepared db db') {h : Hash}
    (hl : LateEscrow db h) : LateEscrow db' h := by
  obtain ⟨id, o, ho, hrest⟩ := hl
  exact ⟨id, o, by rw [hp.getOrder_eq, ho], hrest⟩

theorem LnInv.prepared {db db' : LnDb} {node : LnNode} (hp : Prepared db db')
    (h : LnInv env node db) : LnInv env node db' where
  agree := hp.holds ▸ h.agree
  noDraft id ho := by
    rw [hp.getDraft_eq]
    rw [hp.getOrder_eq] at ho
    exact h.noDraft id ho
  order id o ho := by
    rw [hp.getOrder_eq] at ho
    exact (h.order id o ho).mono fun _ r hr => ⟨r, by rw [hp.holds, hr], .refl r⟩
  lateSettle hash hmem := (h.lateSettle hash (hp.effects _ hmem)).prepared hp

theorem LnInv.moved {c : EdgeCtx} {db db' : LnDb} (h : LnInv c.env c.node db)
    (hm : Moved c db db') : LnInv c.env c.node db' :=
  hm.keeps (fun _ _ hp h => h.prepared hp) (fun _ _ hm h => hm.lnInv h) h

/-- A prepared ledger tells a run the same. -/
theorem RunFact.prepared {node : LnNode} {db db' : LnDb} {e : Effect LnEffect} {a : LnAwait}
    (hp : Prepared db db') (h : RunFact env node db e a) : RunFact env node db' e a := by
  have hfind : ∀ h, db'.holds.find h = db.holds.find h := fun h => by rw [hp.holds]
  have hclosing : ∀ {order rule}, Closing db order rule → Closing db' order rule := by
    rintro order rule ⟨o, reason, ho, hrest⟩
    exact ⟨o, reason, by rw [hp.getOrder_eq, ho], hrest⟩
  have hprogress : ∀ {order rule finals todo}, Progress db node order rule finals todo →
      Progress db' node order rule finals todo := by
    intro order rule finals todo h
    refine ⟨h.ended, fun f hf => by simpa only [hfind] using h.known f hf, fun t ht => ?_, ?_,
      h.taken⟩
    · simpa only [hfind, MaySettle] using h.pending t ht
    · simpa only [hfind] using h.covered
  have hcap : ∀ {inv}, Captured db inv → Captured db' inv := by
    intro inv h
    simpa only [Captured, hfind] using h
  cases a with
  | hold a =>
    cases a with
    | createLookup inv => exact ⟨h.1, hcap h.2⟩
    | createCancel inv => exact ⟨h.1, hcap h.2.1, h.2.2⟩
    | createAdd inv => exact ⟨h.1, by simpa only [hfind] using h.2⟩
    | disposeLookup inv action => exact ⟨h.1, fun hs => (h.2 hs).prepared hp⟩
    | disposeCall inv final =>
      obtain ⟨action, he, hf⟩ := h
      exact ⟨action, he, fun hs => (hf hs).imp_right fun hl => hl.prepared hp⟩
  | closeEscrowLookup order rule escrow =>
    exact ⟨h.1, hclosing h.2.1, h.2.2.1, by simpa only [hfind] using h.2.2.2⟩
  | closeEscrowCall order rule escrow final =>
    exact ⟨h.1, hclosing h.2.1, h.2.2.1, by simpa only [hfind] using h.2.2.2.1, h.2.2.2.2⟩
  | closeLookup finals inv want todo =>
    obtain ⟨order, rule, he, hc, hprog⟩ := h
    exact ⟨order, rule, he, hclosing hc, hprogress hprog⟩
  | closeCall finals inv final todo =>
    obtain ⟨order, rule, want, he, hc, hprog, hw⟩ := h
    exact ⟨order, rule, want, he, hclosing hc, hprogress hprog, hw⟩
  | payoutTrack order bolt11 info =>
    obtain ⟨he, hread, o, ho, hrest⟩ := h
    exact ⟨he, hread, o, by rw [hp.getOrder_eq, ho], hrest⟩
  | payoutPay order bolt11 info =>
    obtain ⟨he, hread, o, ho, hrest⟩ := h
    exact ⟨he, hread, o, by rw [hp.getOrder_eq, ho], hrest⟩

/-! ## Payments -/

/-- What the ledger says about the daemon's payments. -/
structure PayLedger (env : LnEnv) (now : ℤ) (payments : List Payment) (db : LnDb) : Prop where
  /-- a payment that is made or may still be is of the invoice on record of an order that is due -/
  current : ∀ p ∈ payments, ∀ id, p.orderId = some id → p.status ≠ .failed →
    ∃ o bolt11 info, getOrder id db = some o ∧ o.payable ∧ o.sponsorInvoice = some bolt11 ∧
      readBolt11 env bolt11 = some info ∧ p.paymentHash = info.paymentHash
  /-- an invoice is noted as expired only when no payment of the order may still go out -/
  expired : ∀ id o, getOrder id db = some o → o.payoutError = some payoutInvoiceExpired →
    o.payable ∧ Idle payments id ∧ ∃ bolt11 info, o.sponsorInvoice = some bolt11 ∧
      readBolt11 env bolt11 = some info ∧ info.expiresAt ≤ now + 30

/-- The invoice a run has captured is the one on record, or about to expire; a payout recorded as
made meanwhile was made by hand. -/
def PayCaptured (now : ℤ) (db : LnDb) (order : LnOrderRow) (bolt11 : String)
    (info : Bolt11Info) : Prop :=
  ∃ o, getOrder order.orderId db = some o ∧
    (o.sponsorInvoice = some bolt11 ∨ info.expiresAt ≤ now + 30) ∧
    (o.disbursed = true → isManualPayout o.payoutError = true)

/-- What is known of the daemon's payments. -/
structure PayInv (env : LnEnv) (w : LnWorld) : Prop where
  ledger : PayLedger env w.now w.payments w.db
  captured : ∀ e order bolt11 info ans, w.running = some ⟨e, .payoutTrack order bolt11 info, ans⟩ →
    PayCaptured w.now w.db order bolt11 info
  /-- what tracking has said stays true of the order's payments -/
  tracked : ∀ e order bolt11 info status,
    w.running = some ⟨e, .payoutTrack order bolt11 info, some (.tracked status)⟩ →
    (status = none ∨ status = some .failed) → ∀ p ∈ w.payments, p.orderId = some order.orderId →
      p.paymentHash = info.paymentHash → p.status = .failed

section PayEdges

variable {c : EdgeCtx} {id id' : OrderId} {db db' : LnDb} {o o' : LnOrderRow}
  {payments : List Payment}

/-- The invoice of an order that is due is replaced only once it is noted as expired. -/
theorem OrderNext.sponsorInvoice_of_payable (hn : OrderNext c db o o') (hpay : o.payable) :
    o'.sponsorInvoice = o.sponsorInvoice ∨
      (o.disbursed = false ∧ o.payoutError = some payoutInvoiceExpired) := by
  have hstate : ∀ {s : OrderState}, o.state = s → s = .paid ∨ s = .sponsorWins := fun hs => hs ▸ hpay
  cases hn with
  | same => exact .inl rfl
  | close => exact .inl rfl
  | step p hs =>
    cases hs with
    | firstInvoice _ hs => exact absurd (hstate hs) (by simp)
    | replaceInvoice _ hs =>
      rcases hs with hs | hs | hs
      · exact absurd (hstate hs) (by simp)
      · exact absurd (hstate hs) (by simp)
      · exact .inr hs.2
    | _ => exact .inl rfl

/-- The mark of an expired invoice is old, or has just been set for good cause. -/
theorem OrderNext.expired (hn : OrderNext c db o o')
    (hpay : o.payoutError = some payoutInvoiceExpired → o.payable)
    (h : o'.payoutError = some payoutInvoiceExpired) :
    (o.payoutError = some payoutInvoiceExpired ∧ o'.sponsorInvoice = o.sponsorInvoice) ∨
      (o.payable ∧ c.idle o.orderId ∧ ∃ bolt11 info, o'.sponsorInvoice = some bolt11 ∧
        readBolt11 c.env bolt11 = some info ∧ info.expiresAt ≤ c.now + 30) := by
  have hold : o.payoutError = some payoutInvoiceExpired → ∀ {s : OrderState}, o.state = s →
      s = .paid ∨ s = .sponsorWins := fun he _ hs => hs ▸ hpay he
  cases hn with
  | same => exact .inl ⟨h, rfl⟩
  | close => exact .inl ⟨h, rfl⟩
  | step p hs =>
    cases hs with
    | firstInvoice _ hs => exact absurd (hold h hs) (by simp)
    | replaceInvoice => cases h
    | payoutError error _ hne => exact absurd (Option.some.inj h) hne
    | payoutExpired bolt11 info hb hread hexp hidle _ hpay =>
      exact .inr ⟨hpay, hidle, bolt11, info, hb, hread, hexp⟩
    | payoutManual mark hm =>
      rw [show mark = payoutInvoiceExpired from Option.some.inj h] at hm
      exact absurd hm (by decide)
    | disbursed => cases h
    | _ => exact .inl ⟨h, rfl⟩

/-- **Payments and invoices.**  An edge keeps every payment that may still go out on the invoice on
record. -/
theorem LnEdge.payLedger (he : LnEdge c id db db') (hidle : c.idle = Idle payments)
    (hinv : LnInv c.env c.node db) (h : PayLedger c.env c.now payments db) :
    PayLedger c.env c.now payments db' where
  current := by
    intro p hp id' hid hlive
    obtain ⟨o, bolt11, info, ho, hpay, hb, hread, hhash⟩ := h.current p hp id' hid hlive
    obtain ⟨o', ho', hn⟩ := he.order_next ho
    obtain ⟨hpay', -⟩ := hn.payable (hinv.order id' o ho) hpay
    rcases hn.sponsorInvoice_of_payable hpay with hsame | ⟨-, hexp⟩
    · exact ⟨o', bolt11, info, ho', hpay', hsame.trans hb, hread, hhash⟩
    · exact absurd ((h.expired id' o ho hexp).2.1 p hp hid) hlive
  expired := by
    intro id' o' ho' hexp
    have hnext : ∀ o, getOrder id' db = some o → OrderNext c db o o' →
        o'.payable ∧ Idle payments id' ∧ ∃ bolt11 info, o'.sponsorInvoice = some bolt11 ∧
          readBolt11 c.env bolt11 = some info ∧ info.expiresAt ≤ c.now + 30 := by
      intro o ho hn
      rcases hn.expired (fun he => (h.expired id' o ho he).1) hexp with
        ⟨hold, hsame⟩ | ⟨hpay, hid, hrest⟩
      · obtain ⟨hpay, hidle, bolt11, info, hb, hread, hlt⟩ := h.expired id' o ho hold
        exact ⟨(hn.payable (hinv.order id' o ho) hpay).1, hidle, bolt11, info, hsame.trans hb, hread,
          hlt⟩
      · rw [getOrder_orderId ho, hidle] at hid
        exact ⟨(hn.payable (hinv.order id' o ho) hpay).1, hid, hrest⟩
    rcases he.order_cases ho' with ho | ⟨-, -, n, rfl⟩ | ⟨o, p, ho, -, -, hs, rfl⟩ |
      ⟨o, reason, ho, hp, ht, hu, hb, rfl⟩
    · exact hnext o' ho .same
    · cases hexp
    · exact hnext o ho (.step p hs)
    · exact hnext o ho (.close reason hp ht hu hb)

/-- A transaction that is not the end of a payout keeps what a payout has captured. -/
theorem LnEdge.payCaptured (he : LnEdge c id db db') (hpays : ∀ id, ¬ c.pays id)
    {order : LnOrderRow} {bolt11 : String} {info : Bolt11Info}
    (hrun : PayoutOf c.env db order.orderId bolt11 info)
    (h : PayLedger c.env c.now payments db) (hc : PayCaptured c.now db order bolt11 info) :
    PayCaptured c.now db' order bolt11 info := by
  obtain ⟨o, ho, hb, hd⟩ := hc
  obtain ⟨hread, o₁, ho₁, hpay, -⟩ := hrun
  obtain rfl := Option.some.inj (ho.symm.trans ho₁)
  obtain ⟨o', ho', hn⟩ := he.order_next ho
  refine ⟨o', ho', ?_, ?_⟩
  · rcases hn.sponsorInvoice_of_payable hpay with hsame | ⟨-, hexp⟩
    · exact hb.imp_left hsame.trans
    · -- the invoice that was replaced is the captured one, or that one is expired already
      obtain ⟨-, -, b, i, hb', hread', hlt⟩ := h.expired _ o ho hexp
      refine .inr (hb.elim (fun hb => ?_) fun hlt => hlt)
      obtain rfl := Option.some.inj (hb.symm.trans hb')
      obtain rfl := Option.some.inj (hread.symm.trans hread')
      exact hlt
  · intro hd'
    cases hn with
    | same => exact hd hd'
    | close => exact hd hd'
    | step p hs =>
      cases hs with
      | replaceInvoice _ hs =>
        rcases hs with hs | hs | hs
        · rcases hpay with hp | hp <;> rw [hs] at hp <;> cases hp
        · rcases hpay with hp | hp <;> rw [hs] at hp <;> cases hp
        · rw [show o.disbursed = true from hd'] at hs
          cases hs.2.1
      | payoutError _ hm => exact absurd (hd hd') (by simp [hm])
      | payoutExpired _ _ _ _ _ _ hm => exact absurd (hd hd') (by simp [hm])
      | payoutManual _ hm => exact hm
      | disbursed hend => exact absurd hend (hpays _)
      | markDisbursed hm => exact hm
      | _ => exact hd hd'

end PayEdges

/-! ## Soundness -/

/-- What holds of every reachable world. -/
structure Sound (env : LnEnv) (w : LnWorld) : Prop where
  ledger : LnInv env w.node w.db
  named : ∀ h inv, w.node h = some inv → inv.bolt11 ≠ ""
  running : ∀ e a ans, w.running = some ⟨e, a, ans⟩ →
    RunFact env w.node w.db e a ∧ AnswerFact w.node a ans
  polled : ∀ p, w.polled = some p → ∀ l, p.lookup = some l →
    LookupFact w.node p.paymentHash (some l)
  pay : PayInv env w

/-! ## Every step moves by edges -/

section Steps

variable {c : EdgeCtx} {db : LnDb} {e : Effect LnEffect}

/-- The invoices a run may write at its end. -/
theorem context_touch (h : w.effectOf i = some e) {r r' : HoldRow} (hs : r'.status ≠ .accepted)
    (hh : r'.htlcExpiryHeight = r.htlcExpiryHeight) : (w.context env i).touch r r' :=
  .inr ⟨by rw [h]; rfl, hs, hh⟩

/-- A run may give any deposit up. -/
theorem drops_of_effectOf (he : w.effectOf i = some e) {h : Hash} : (w.context env i).drops h := by
  rintro height price rfl
  cases he

/-- **Recording a run** leads by edges. -/
theorem onDone_leads {result : LnResult} (hfact : DoneFact c db e result)
    (hagree : HoldsAgree c.node db.holds) (hu : ∀ h, c.drops h)
    (htouch : ∀ r r' : HoldRow, r'.status ≠ .accepted →
      r'.htlcExpiryHeight = r.htlcExpiryHeight → c.touch r r')
    (hcloses : ∀ id, e = .own (.close id) → c.closes id)
    (hpays : ∀ id, e = .own (.payout id) → c.pays id)
    (hmoves : ∀ h, e = .holdCreate h → c.moves .claimed .verified ∧ c.moves .claimed .requested) :
    Leads (LnMove c) db ((c.ctx none).onDone e result db) := by
  have hfinal : ∀ r r' : HoldRow, r'.Final → r'.htlcExpiryHeight = r.htlcExpiryHeight →
      c.touch r r' := by
    intro r r' hr' hh
    refine htouch r r' (fun h => ?_) hh
    rcases hr' with hs | hs <;> rw [hs] at h <;> cases h
  cases e with
  | holdCreate h =>
    cases result with
    | hold r =>
      refine createDone_leads hu hfact.1 hfact.2 (fun r r' hr' hh => htouch r r' (fun h => ?_) hh)
        (hmoves h rfl)
      rcases hr' with hs | hs <;> rw [hs] at h <;> cases h
    | _ => exact False.elim hfact
  | holdDispose h a =>
    cases result with
    | hold r => exact disposeDone_leads hagree hfact hfinal
    | _ => exact False.elim hfact
  | own e =>
    cases e with
    | close id =>
      cases result with
      | closed finals => exact finishClose_leads hagree hfact.1 hfinal (hcloses id rfl)
      | _ => exact False.elim hfact
    | payout id =>
      cases result with
      | payout outcome => exact payoutDone_leads (hpays id rfl) hfact
      | _ => exact False.elim hfact

theorem onRetry_leads {error : String} (h : PlainError error) :
    Leads (LnMove c) db ((c.ctx none).onRetry e error db) := by
  cases e with
  | own e =>
    cases e with
    | payout id => exact payoutRetry_leads h.1 h.2
    | close id => exact .refl
  | _ => exact .refl

theorem onDead_leads {error : String} (h : DeadFact c db e)
    (hcloses : ∀ id, e = .own (.close id) → c.closes id) :
    Leads (LnMove c) db ((c.ctx none).onDead e error db) := by
  cases e with
  | own e =>
    cases e with
    | payout id => exact False.elim h
    | close id =>
      obtain ⟨o, reason, ho, hpc, hlost⟩ := h
      refine abandonClose_leads (hcloses id rfl) fun o' reason' ho' hpc' => ?_
      obtain rfl := Option.some.inj (ho.symm.trans ho')
      obtain rfl := Option.some.inj (hpc.symm.trans hpc')
      exact hlost
  | _ => exact .refl

/-- The facts about an outcome are the same on a prepared ledger. -/
theorem DoneFact.prepared {db' : LnDb} {result : LnResult} (hp : Prepared db db')
    (h : DoneFact c db e result) : DoneFact c db' e result := by
  cases e with
  | holdCreate hash =>
    cases result with
    | hold r => simpa only [DoneFact, hp.holds] using h
    | _ => exact h
  | holdDispose hash a => cases result <;> exact h
  | own e =>
    cases e with
    | close id =>
      cases result with
      | closed finals =>
        refine ⟨⟨h.1.ended, ?_⟩, ?_⟩
        · simpa only [hp.getOrder_eq, hp.holds] using h.1.taken
        · simpa only [hp.getOrder_eq, hp.holds] using h.2
      | _ => exact h
    | payout id =>
      cases result with
      | payout outcome => simpa only [DoneFact, hp.getOrder_eq] using h
      | _ => exact h

theorem DeadFact.prepared {db' : LnDb} (hp : Prepared db db') (h : DeadFact c db e) :
    DeadFact c db' e := by
  cases e with
  | own e =>
    cases e with
    | close id => simpa only [DeadFact, hp.getOrder_eq] using h
    | payout id => exact h
  | _ => trivial

theorem plain_onDone (s : String) : PlainError ("onDone 실패: " ++ s) := by
  constructor
  · simp [payoutInvoiceExpired, ← String.toList_inj]
  · simp [isManualPayout, payoutManual, payoutManualRequested, ← String.toList_inj]

/-- **A turn** moves the ledger by edges. -/
theorem moved_turn {t : LnTurn} (hagree : HoldsAgree w.node w.db.holds)
    (he : w.effectOf i = some e) (hfact : TurnFact (w.context env i) w.db e t) :
    Moved (w.context env i) w.db (w.turn env e t).db := by
  have hcloses : ∀ id, e = .own (.close id) → (w.context env i).closes id := by
    rintro id rfl
    exact he
  have hpays : ∀ id, e = .own (.payout id) → (w.context env i).pays id := by
    rintro id rfl
    exact he
  have hmoves : ∀ h, e = .holdCreate h → (w.context env i).moves .claimed .verified ∧
      (w.context env i).moves .claimed .requested := by
    rintro h rfl
    cases i with
    | start | resume => exact ⟨⟨⟨h, he⟩, rfl, .inl rfl⟩, ⟨h, he⟩, rfl, .inr rfl⟩
    | _ => cases he
  cases t with
  | await a => exact .refl _ _
  | retry err =>
    exact moved_transact (w := { w with running := none }) (c := w.context env i)
      (onRetry_leads hfact)
  | dead err =>
    have hp := prepared_finish e w.db
    unfold LnWorld.turn LnWorld.transact
    dsimp only
    split
    · rename_i db' hdb'
      exact ⟨w.db.finish e, ⟨hp, .inl rfl⟩, onDead_leads (DeadFact.prepared hp hfact) hcloses db' hdb'⟩
    · exact .refl _ _
  | done r =>
    have hp := prepared_finish e w.db
    unfold LnWorld.turn
    dsimp only
    split
    · rename_i db' hdb'
      exact ⟨w.db.finish e, ⟨hp, .inl rfl⟩, onDone_leads (DoneFact.prepared hp hfact) hagree
        (fun _ => drops_of_effectOf he) (fun r r' hs hh => context_touch he hs hh) hcloses hpays hmoves
        db' hdb'⟩
    · rename_i err _
      exact moved_transact (w := { w with running := none }) (onRetry_leads (plain_onDone _))

/-- The turn a step takes, and what is known after it. -/
structure TakesTurn (env : LnEnv) (w : LnWorld) (i : LnInput) (e : Effect LnEffect) (t : LnTurn)
    (w' : LnWorld) : Prop where
  effect : w.effectOf i = some e
  fact : TurnFact (w.context env i) w.db e t
  next : w' = w.turn env e t

theorem takesTurn_start (h : Sound env w) (hs : LnWorld.step env w (.start e) = some w') :
    TakesTurn env w (.start e) e (LnCtx.startRun ⟨env, w.now, none⟩ e w.db) w' := by
  unfold LnWorld.step at hs
  dsimp only at hs
  split at hs
  · rename_i hen
    exact ⟨rfl, turnFact_start h.ledger hen.2, (Option.some.inj hs).symm⟩
  · cases hs

theorem takesTurn_resume (h : Sound env w) (hs : LnWorld.step env w .resume = some w') :
    ∃ e a ans, w.running = some ⟨e, a, some ans⟩ ∧
      TakesTurn env w .resume e (LnCtx.resumeRun ⟨env, w.now, none⟩ a ans w.db) w' := by
  unfold LnWorld.step at hs
  dsimp only at hs
  split at hs
  · rename_i e a ans hrun
    refine ⟨e, a, ans, hrun, by simp [LnWorld.effectOf, hrun], ?_, (Option.some.inj hs).symm⟩
    obtain ⟨hfact, hans⟩ := h.running e a _ hrun
    refine turnFact_resume h.named hfact hans ?_
    rintro order bolt11 info status rfl rfl hst - o ho hb p hp hid
    -- a payment that may still go out would be of the very invoice that was tracked
    by_contra hne
    obtain ⟨o', bolt11', info', ho', -, hb', hread', hhash⟩ := h.pay.ledger.current p hp _ hid hne
    obtain rfl := Option.some.inj (ho.symm.trans ho')
    obtain rfl := Option.some.inj (hb.symm.trans hb')
    obtain rfl := Option.some.inj (hfact.2.1.symm.trans hread')
    exact hne (h.pay.tracked _ _ _ _ _ hrun hst p hp hid hhash)
  · cases hs

/-- The clock takes no claim and writes no hold row. -/
theorem context_ticking (env : LnEnv) (w : LnWorld) (height : Option ℕ) (price : Option ℚ) :
    (w.context env (.clock height price)).Ticking where
  claims := by
    rintro ⟨_, _, _, ⟨⟩⟩
  touch := by
    rintro r r' (⟨⟨⟩, -⟩ | ⟨⟨⟩, -⟩)
  closes := by
    rintro id ⟨⟩
  reverts := ⟨rfl, rfl⟩
  begins := rfl

/-- Writing the height down changes no judgement about a deposit. -/
theorem depositOverdue_recordHeight {now : ℤ} {height : Option ℕ} {h : Hash}
    (hov : DepositOverdue env now (LnCtx.recordHeight height db) h) :
    DepositOverdue env now db h := by
  cases height <;> exact hov

theorem escrowOverdue_recordHeight {now startedAt : ℤ} {height height' : Option ℕ} {h : Hash}
    (hov : EscrowOverdue env now startedAt height (LnCtx.recordHeight height' db) h) :
    EscrowOverdue env now startedAt height db h := by
  cases height' <;> exact hov

/-- The clock notes the height it is told. -/
theorem heightNoted_recordHeight {height : Option ℕ} {price : Option ℚ} :
    HeightNoted (w.context env (.clock height price)) w.db (LnCtx.recordHeight height w.db) := by
  cases height with
  | none => exact .inl rfl
  | some h => exact .inr ⟨h, ⟨price, rfl⟩, rfl⟩

/-- **Every step of the world changes the ledger by edges of its context.** -/
theorem step_moved (h : Sound env w) (hs : LnWorld.step env w i = some w') :
    Moved (w.context env i) w.db w'.db := by
  cases i with
  | tick =>
    obtain rfl := Option.some.inj hs
    exact .refl _ _
  | request action event price =>
    obtain rfl := Option.some.inj hs
    exact moved_transact (handle_leads ⟨action, event, price, rfl⟩ (fun _ _ _ hi => by cases hi)
      (fun _ _ h => h) rfl fun haction ho hsoon => ⟨event, price, _, by rw [haction], ho, hsoon⟩)
  | command cmd orderId version price =>
    obtain rfl := Option.some.inj hs
    exact moved_transact (command_leads (fun _ _ _ hi => by cases hi) ⟨rfl, rfl⟩ rfl)
  | configSet settings =>
    obtain rfl := Option.some.inj hs
    exact Prepared.moved ⟨rfl, rfl, rfl, fun _ h => h⟩ (.inl rfl)
  | clock height price =>
    obtain rfl := Option.some.inj hs
    have hlead : Leads (LnMove (w.context env (.clock height price))) (LnCtx.recordHeight height w.db)
        (LnCtx.clock ⟨env, w.now, price⟩ w.startedAt height (LnCtx.recordHeight height w.db)) := by
      refine clock_leads (context_ticking env w height price)
        (h.ledger.prepared (prepared_recordHeight height w.db)).noDraft ?_ ?_ ?_
      · rintro d dep hd hdep hov _ _ -
        exact depositOverdue_recordHeight (.inl ⟨d, dep, hd, hdep, rfl, hov⟩)
      · rintro o dep ho haw hdep hov _ _ -
        exact depositOverdue_recordHeight (.inr ⟨o, dep, ho, haw, hdep, rfl, hov⟩)
      · intro o hash ho hs hp hh hj
        exact .inl ⟨height, price, rfl, escrowOverdue_recordHeight ⟨o, ho, hs, hp, hh, hj⟩⟩
    unfold LnWorld.transact
    dsimp only
    split
    · rename_i db' hdb'
      exact ⟨_, ⟨prepared_recordHeight height w.db, heightNoted_recordHeight⟩, hlead db' hdb'⟩
    · exact (prepared_recordHeight height w.db).moved heightNoted_recordHeight
  | poll hash =>
    simp only [LnWorld.step] at hs
    split at hs
    · obtain rfl := Option.some.inj hs
      exact .refl _ _
    · cases hs
  | observe =>
    simp only [LnWorld.step] at hs
    split at hs
    · cases hs
    · rename_i p hp
      have hlead : Leads (LnMove (w.context env .observe)) w.db
          (observe (LnCtx.holdHooks ⟨env, w.now, none⟩) w.now p.paymentHash p.lookup w.db) := by
        refine observe_leads (fun _ _ _ hi => by cases hi) (fun hend => .inr ⟨rfl, hend⟩)
          h.ledger.agree ?_ ?_ ⟨.inl ⟨rfl, rfl⟩, .inr ⟨rfl, rfl⟩⟩ rfl
        · intro l hl
          have := h.polled p hp l hl
          rwa [hl]
        · exact fun r r' hr hne hh => .inl ⟨rfl, hne, p, hp, hr, hh⟩
      split at hs
      · rename_i db' hdb'
        obtain rfl := Option.some.inj hs
        exact ⟨w.db, ⟨.refl _, .inl rfl⟩, hlead db' hdb'⟩
      · obtain rfl := Option.some.inj hs
        exact .refl _ _
  | start e =>
    obtain ⟨he, hfact, rfl⟩ := takesTurn_start h hs
    exact moved_turn h.ledger.agree he hfact
  | resume =>
    obtain ⟨e, a, ans, -, he, hfact, rfl⟩ := takesTurn_resume h hs
    exact moved_turn h.ledger.agree he hfact
  | crash =>
    obtain rfl := Option.some.inj hs
    exact .refl _ _
  | serve fault bolt11 =>
    simp only [LnWorld.step] at hs
    split at hs
    · split at hs
      · cases hs
      · obtain rfl := Option.some.inj hs
        exact .refl _ _
    · cases hs
  | answer ans =>
    simp only [LnWorld.step] at hs
    split at hs
    · split at hs
      · obtain rfl := Option.some.inj hs
        exact .refl _ _
      · cases hs
    · cases hs
  | accept hash height =>
    obtain ⟨n, -, rfl⟩ := Option.map_eq_some_iff.mp hs
    exact .refl _ _
  | expire hash =>
    obtain ⟨n, -, rfl⟩ := Option.map_eq_some_iff.mp hs
    exact .refl _ _
  | resolve index status =>
    simp only [LnWorld.step] at hs
    split at hs
    · split at hs
      · obtain rfl := Option.some.inj hs
        exact .refl _ _
      · cases hs
    · cases hs
  | payByHand hash =>
    obtain rfl := Option.some.inj hs
    exact .refl _ _
  | otherTrack p =>
    simp only [LnWorld.step] at hs
    split at hs
    · cases hs
    · rename_i hp
      obtain rfl := Option.some.inj hs
      exact moved_transact (otherTrack_leads hp)

end Steps

/-! ## Where a payout pays -/

section PayTurns

variable {ctx : LnCtx} {node : LnNode} {db : LnDb} {e : Effect LnEffect} {a : LnAwait}
  {order : LnOrderRow} {bolt11 : String} {info : Bolt11Info}

/-- A payment begins only after tracking, when the operator has not stopped the payout and the
invoice has time left. -/
theorem payoutPay_of_resume {ans : LnAnswer} (hrun : RunFact ctx.env node db e a)
    (he : e = .own (.payout order.orderId))
    (ht : ctx.resumeRun a ans db = .await (.payoutPay order bolt11 info)) :
    a = .payoutTrack order bolt11 info ∧ (∃ status, ans = .tracked status) ∧
      isManualPayout ((getOrder order.orderId db).bind LnOrderRow.payoutError) = false ∧
      ctx.now + 30 < info.expiresAt := by
  subst he
  cases a with
  | payoutTrack order' bolt11' info' =>
    cases ans with
    | tracked status =>
      change ctx.payoutTracked order' bolt11' info' db status = _ at ht
      unfold LnCtx.payoutTracked at ht
      split at ht
      · cases ht
      · cases ht
      · split at ht
        · cases ht
        · rename_i hm
          split at ht
          · cases ht
          · rename_i hexp
            cases ht
            exact ⟨rfl, ⟨status, rfl⟩, by simpa using hm, by omega⟩
    | _ => cases ht
  | payoutPay order' bolt11' info' =>
    cases ans with
    | paid status reason =>
      cases status with
      | failed => cases reason <;> cases ht
      | _ => cases ht
    | _ => cases ht
  | hold a => cases a <;> first | cases hrun.1 | (obtain ⟨_, h, -⟩ := hrun; cases h)
  | closeLookup =>
    obtain ⟨_, _, h, -⟩ := hrun
    cases h
  | closeCall =>
    obtain ⟨_, _, _, h, -⟩ := hrun
    cases h
  | _ => cases hrun.1

/-- A run that goes on does not track again. -/
theorem not_payoutTrack_of_resume {ans : LnAnswer} (hrun : RunFact ctx.env node db e a)
    (he : e = .own (.payout order.orderId)) :
    ctx.resumeRun a ans db ≠ .await (.payoutTrack order bolt11 info) := by
  intro ht
  subst he
  cases a with
  | payoutTrack order' bolt11' info' =>
    cases ans with
    | tracked status =>
      change ctx.payoutTracked order' bolt11' info' db status = _ at ht
      unfold LnCtx.payoutTracked at ht
      split at ht
      · cases ht
      · cases ht
      · split at ht
        · cases ht
        · split at ht <;> cases ht
    | _ => cases ht
  | payoutPay order' bolt11' info' =>
    cases ans with
    | paid status reason =>
      cases status with
      | failed => cases reason <;> cases ht
      | _ => cases ht
    | _ => cases ht
  | hold a => cases a <;> first | cases hrun.1 | (obtain ⟨_, h, -⟩ := hrun; cases h)
  | closeLookup =>
    obtain ⟨_, _, h, -⟩ := hrun
    cases h
  | closeCall =>
    obtain ⟨_, _, _, h, -⟩ := hrun
    cases h
  | _ => cases hrun.1

/-- How a payout begins: with the order and the invoice on record, if at all. -/
theorem payoutStart_cases (hinv : ∀ id o, getOrder id db = some o → OrderInv ctx.env db o)
    (id : OrderId) : ctx.payoutStart id db = .done (.payout .skip) ∨
      ∃ o bolt11 info, getOrder id db = some o ∧ o.sponsorInvoice = some bolt11 ∧
        o.disbursed = false ∧ ctx.payoutStart id db = .await (.payoutTrack o bolt11 info) := by
  cases ho : getOrder id db with
  | none => exact .inl (by simp only [LnCtx.payoutStart, ho])
  | some o =>
    by_cases hd : o.disbursed = true
    · exact .inl (by simp only [LnCtx.payoutStart, ho, hd, if_true])
    · by_cases hpay : o.payable
      · obtain ⟨b, i, hb, -, -, hstart⟩ :=
          payoutStart_of_payable ctx ho (hinv _ o ho) hpay (by simpa using hd)
        exact .inr ⟨o, b, i, rfl, hb, by simpa using hd, hstart⟩
      · have hstate : o.state ≠ .paid ∧ o.state ≠ .sponsorWins := not_or.mp hpay
        exact .inl (by simp [LnCtx.payoutStart, ho, hd, hstate])

/-- A payout begins with the order and the invoice on record. -/
theorem payoutTrack_of_start (hinv : ∀ id o, getOrder id db = some o → OrderInv ctx.env db o)
    (he : e = .own (.payout order.orderId))
    (ht : ctx.startRun e db = .await (.payoutTrack order bolt11 info)) :
    getOrder order.orderId db = some order ∧ order.sponsorInvoice = some bolt11 ∧
      order.disbursed = false := by
  subst he
  change ctx.payoutStart order.orderId db = _ at ht
  rcases payoutStart_cases hinv order.orderId with h | ⟨o, b, i, ho, hb, hd, h⟩
  · rw [h] at ht
    cases ht
  · rw [h] at ht
    cases ht
    exact ⟨ho, hb, hd⟩

theorem not_payoutPay_of_start (hinv : ∀ id o, getOrder id db = some o → OrderInv ctx.env db o)
    (he : e = .own (.payout order.orderId)) :
    ctx.startRun e db ≠ .await (.payoutPay order bolt11 info) := by
  intro ht
  subst he
  change ctx.payoutStart order.orderId db = _ at ht
  rcases payoutStart_cases hinv order.orderId with h | ⟨o, b, i, ho, hb, hd, h⟩ <;>
    · rw [h] at ht
      cases ht

end PayTurns

/-! ## Soundness is kept -/

section Keeps

variable {e : Effect LnEffect}

theorem context_quiet (hq : w.effectOf i = none) : (w.context env i).Quiet where
  creating r r' hs ht := by
    rcases ht with ⟨-, hne, -⟩ | ⟨hsome, -⟩
    · exact hne hs
    · rw [hq] at hsome
      cases hsome
  closes id h := by
    rw [show w.effectOf i = some (.own (.close id)) from h] at hq
    cases hq

/-- What is known of payments is kept by a step's transaction. -/
theorem PayLedger.moved {db : LnDb} (hm : Moved (w.context env i) w.db db)
    (hinv : LnInv env w.node w.db) (h : PayLedger env w.now w.payments w.db) :
    PayLedger env w.now w.payments db := by
  refine (hm.keeps (P := fun db => LnInv env w.node db ∧ PayLedger env w.now w.payments db)
    ?_ ?_ ⟨hinv, h⟩).2
  · rintro a b hp ⟨hinv, h⟩
    refine ⟨hinv.prepared hp, ?_, ?_⟩
    · simpa only [hp.getOrder_eq] using h.current
    · simpa only [hp.getOrder_eq] using h.expired
  · rintro a b ⟨id, he⟩ ⟨hinv, h⟩
    exact ⟨he.lnInv hinv, he.payLedger rfl hinv h⟩

/-- A transaction that is not the end of a run leaves the running effect what it knows. -/
theorem RunFact.moved {db : LnDb} {a : LnAwait} (hq : w.effectOf i = none)
    (hm : Moved (w.context env i) w.db db) (hinv : LnInv env w.node w.db)
    (h : RunFact env w.node w.db e a) : RunFact env w.node db e a := by
  refine (hm.keeps (P := fun db => LnInv env w.node db ∧ RunFact env w.node db e a)
    ?_ ?_ ⟨hinv, h⟩).2
  · rintro a b hp ⟨hinv, h⟩
    exact ⟨hinv.prepared hp, h.prepared hp⟩
  · rintro a b ⟨id, he⟩ ⟨hinv, h⟩
    exact ⟨he.lnInv hinv, RunFact.edge (context_quiet hq) h hinv he⟩

theorem PayCaptured.moved {db : LnDb} {order : LnOrderRow} {bolt11 : String} {info : Bolt11Info}
    (hq : w.effectOf i = none) (hm : Moved (w.context env i) w.db db)
    (hinv : LnInv env w.node w.db) (hl : PayLedger env w.now w.payments w.db)
    (hrun : PayoutOf env w.db order.orderId bolt11 info)
    (h : PayCaptured w.now w.db order bolt11 info) : PayCaptured w.now db order bolt11 info := by
  refine (hm.keeps (P := fun db => LnInv env w.node db ∧ PayLedger env w.now w.payments db ∧
    PayoutOf env db order.orderId bolt11 info ∧ PayCaptured w.now db order bolt11 info)
    ?_ ?_ ⟨hinv, hl, hrun, h⟩).2.2.2
  · rintro a b hp ⟨hinv, hl, ⟨hread, o, ho, hrest⟩, ⟨o', ho', hrest'⟩⟩
    refine ⟨hinv.prepared hp, ⟨?_, ?_⟩, ⟨hread, o, by rw [hp.getOrder_eq, ho], hrest⟩,
      ⟨o', by rw [hp.getOrder_eq, ho'], hrest'⟩⟩
    · simpa only [hp.getOrder_eq] using hl.current
    · simpa only [hp.getOrder_eq] using hl.expired
  · rintro a b ⟨id, he⟩ ⟨hinv, hl, hrun, h⟩
    refine ⟨he.lnInv hinv, he.payLedger rfl hinv hl, hrun.move hinv he,
      he.payCaptured (fun id h => ?_) hrun hl h⟩
    rw [show w.effectOf i = some (.own (.payout id)) from h] at hq
    cases hq

/-- A step of the daemon that is not a turn of a run keeps soundness. -/
theorem sound_quiet (h : Sound env w) (hq : w.effectOf i = none) {db : LnDb}
    (hm : Moved (w.context env i) w.db db) {polled : Option Polled}
    (hpolled : ∀ p, polled = some p → w.polled = some p) (observed : List (Hash × ℤ)) :
    Sound env { w with db := db, polled := polled, observed := observed } where
  ledger := h.ledger.moved hm
  named := h.named
  running e a ans hr := by
    obtain ⟨hfact, hans⟩ := h.running e a ans hr
    exact ⟨RunFact.moved (w := w) hq hm h.ledger hfact, hans⟩
  polled p hp := h.polled p (hpolled p hp)
  pay := by
    refine ⟨PayLedger.moved (w := w) hm h.ledger h.pay.ledger, ?_, h.pay.tracked⟩
    intro e order bolt11 info ans hr
    exact PayCaptured.moved (w := w) hq hm h.ledger h.pay.ledger (h.running _ _ _ hr).1.2
      (h.pay.captured e order bolt11 info ans hr)

theorem transact_eq (w : LnWorld) (tx : LnDb → Except Abort LnDb) :
    w.transact tx = { w with db := (w.transact tx).db } := by
  unfold LnWorld.transact
  split <;> rfl

theorem sound_transact (h : Sound env w) (hq : w.effectOf i = none)
    {tx : LnDb → Except Abort LnDb} (hm : Moved (w.context env i) w.db (w.transact tx).db) :
    Sound env (w.transact tx) := by
  rw [transact_eq]
  exact sound_quiet h hq hm (fun _ hp => hp) w.observed

/-- The node has served a call. -/
theorem named_serve (h : ∀ hash inv, w.node hash = some inv → inv.bolt11 ≠ "") (fault : Fault)
    (bolt11 : String) (call : NodeCall) :
    ∀ hash inv, (w.node.serve fault bolt11 call).1 hash = some inv → inv.bolt11 ≠ "" := by
  intro hash inv hinv
  cases hold : w.node hash with
  | some old =>
    obtain ⟨inv', hinv', -, -, hb⟩ := LnNode.later_serve w.node fault bolt11 call hash old hold
    obtain rfl := Option.some.inj (hinv.symm.trans hinv')
    exact hb ▸ h hash old hold
  | none =>
    by_cases hcall : call = .addHoldInvoice hash
    · subst hcall
      cases hp : w.node.perform bolt11 (.addHoldInvoice hash) with
      | none => cases fault <;> simp [LnNode.serve, hp, hold] at hinv
      | some r =>
        have hset : r.1 = w.node.set hash ⟨⟨.opened, bolt11, none⟩, none⟩ ∧ bolt11 ≠ "" := by
          simp only [LnNode.perform] at hp
          split at hp
          · cases hp
          · rename_i hb
            obtain ⟨n, hn, rfl⟩ := Option.map_eq_some_iff.mp hp
            exact ⟨(LnNode.addHoldInvoice_spec hn).2, hb⟩
        cases fault with
        | lostRequest => simp [LnNode.serve, hold] at hinv
        | none =>
          simp only [LnNode.serve, hp, hset.1, LnNode.set_self, Option.some.injEq] at hinv
          exact hinv ▸ hset.2
        | lostAnswer =>
          simp only [LnNode.serve, hp, hset.1, LnNode.set_self, Option.some.injEq] at hinv
          exact hinv ▸ hset.2
    · rw [LnNode.none_of_serve hcall hold] at hinv
      cases hinv

/-- The table agrees with the node after a call: a new invoice is one still being made on record. -/
theorem holdsAgree_serve {a : LnAwait} {call : NodeCall} {db : LnDb} {fault : Fault}
    {bolt11 : String} (hagree : HoldsAgree w.node db.holds) (hcall : LnWorld.nodeCall a = some call)
    (hrun : RunFact env w.node db e a) :
    HoldsAgree (w.node.serve fault bolt11 call).1 db.holds := by
  intro hash r hr
  refine (hagree hash r hr).later (LnNode.later_serve _ _ _ _) fun hs hn => ?_
  refine LnNode.none_of_serve (fun hadd => ?_) hn
  subst hadd
  -- only the run that makes the invoice adds it
  cases a with
  | hold a =>
    cases a with
    | createAdd inv =>
      obtain ⟨-, r', hr', hs'⟩ := hrun
      have hkey : r.paymentHash = hash := KeyedTable.key_of_find hr
      have heq : inv.paymentHash = r.paymentHash := by
        simpa [LnWorld.nodeCall, HoldAwait.call] using hcall
      rw [heq, hkey, hr] at hr'
      obtain rfl := Option.some.inj hr'
      rw [hs] at hs'
      cases hs'
    | disposeCall inv final => cases final <;> cases hcall
    | _ => cases hcall
  | closeEscrowCall _ _ _ final => cases final <;> cases hcall
  | closeCall _ _ final => cases final <;> cases hcall
  | _ => cases hcall

/-- The node drifts: the payers and the node itself act. -/
theorem sound_drift (h : Sound env w) {node : LnNode} (hd : w.node.Drifts node) :
    Sound env { w with node := node } where
  ledger := h.ledger.node fun hash r hr =>
    (h.ledger.agree hash r hr).later hd.later fun _ => hd.noNew _
  named := by
    intro hash inv hinv
    cases hold : w.node hash with
    | none => exact absurd ((hd.noNew hash hold).symm.trans hinv) (by simp)
    | some old =>
      obtain ⟨inv', hinv', -, -, hb⟩ := hd.later hash old hold
      obtain rfl := Option.some.inj (hinv.symm.trans hinv')
      exact hb ▸ h.named hash old hold
  running e a ans hr := by
    obtain ⟨hfact, hans⟩ := h.running e a ans hr
    exact ⟨hfact.later hd.later fun hash _ => hd.noNew hash,
      fun call b hcall hb => (hans call b hcall hb).drift hd⟩
  polled p hp l hl := (h.polled p hp l hl).later hd.later
  pay := ⟨h.pay.ledger, h.pay.captured, h.pay.tracked⟩

/-- The node serves the call that the running effect awaits. -/
theorem sound_serve (h : Sound env w) {a : LnAwait} {call : NodeCall} {fault : Fault}
    {bolt11 : String} (hr : w.running = some ⟨e, a, none⟩)
    (hcall : LnWorld.nodeCall a = some call) (calls : List (Effect LnEffect × NodeCall)) :
    Sound env { w with
      running := some ⟨e, a, some (.node (w.node.serve fault bolt11 call).2)⟩
      node := (w.node.serve fault bolt11 call).1
      calls := calls } where
  ledger := h.ledger.node (holdsAgree_serve h.ledger.agree hcall (h.running e a _ hr).1)
  named := named_serve h.named fault bolt11 call
  running e' a' ans hr' := by
    obtain ⟨⟨⟩⟩ := hr'
    refine ⟨(h.running e a _ hr).1.later (LnNode.later_serve _ _ _ _) fun hash hne hn => ?_, ?_⟩
    · refine LnNode.none_of_serve (fun he => hne ?_) hn
      rw [hcall, he]
    · intro call' b hcall' hb
      obtain rfl := Option.some.inj (hcall.symm.trans hcall')
      cases hb
      exact callFact_serve _ _ _ _
  polled p hp l hl := (h.polled p hp l hl).later (LnNode.later_serve _ _ _ _)
  pay := by
    refine ⟨h.pay.ledger, ?_, ?_⟩
    · rintro _ _ _ _ _ ⟨⟩
      exact h.pay.captured _ _ _ _ _ hr
    · rintro _ _ _ _ _ ⟨⟩

/-- The payment that begins with this turn is of the invoice on record. -/
theorem payLedger_payoutPay {order : LnOrderRow} {bolt11 : String} {info : Bolt11Info}
    (h : PayLedger env w.now w.payments w.db)
    (hpay : PayoutOf env w.db order.orderId bolt11 info)
    (hc : PayCaptured w.now w.db order bolt11 info) (hlt : w.now + 30 < info.expiresAt) :
    PayLedger env w.now (w.payments ++ [⟨some order.orderId, info.paymentHash, .inFlight⟩])
      w.db := by
  obtain ⟨hread, o, ho, hpay, -⟩ := hpay
  obtain ⟨o', ho', hb, -⟩ := hc
  obtain rfl := Option.some.inj (ho.symm.trans ho')
  have hb : o.sponsorInvoice = some bolt11 := hb.resolve_right (by omega)
  refine ⟨fun p hp id hid hlive => ?_, fun id o' ho' hexp => ?_⟩
  · rcases List.mem_append.mp hp with hp | hp
    · exact h.current p hp id hid hlive
    · obtain rfl := List.mem_singleton.mp hp
      obtain rfl := Option.some.inj hid
      exact ⟨o, bolt11, info, ho, hpay, hb, hread, rfl⟩
  · obtain ⟨hpay', hidle, b, i, hb', hread', hexp'⟩ := h.expired id o' ho' hexp
    refine ⟨hpay', fun p hp hid => ?_, b, i, hb', hread', hexp'⟩
    rcases List.mem_append.mp hp with hp | hp
    · exact hidle p hp hid
    · -- an order whose invoice is about to expire is not the one paid now
      obtain rfl := List.mem_singleton.mp hp
      obtain rfl := Option.some.inj hid
      obtain rfl := Option.some.inj (ho.symm.trans ho')
      obtain rfl := Option.some.inj (hb.symm.trans hb')
      obtain rfl := Option.some.inj (hread.symm.trans hread')
      omega

/-- What a turn leaves besides the ledger: it awaits, or its run is over. -/
theorem turn_cases (env : LnEnv) (w : LnWorld) (e : Effect LnEffect) (t : LnTurn) :
    (∃ a, t = .await a) ∨ ∃ db, w.turn env e t = { w with db := db, running := none } := by
  cases t with
  | await a => exact .inl ⟨a, rfl⟩
  | retry err => exact .inr ⟨_, transact_eq { w with running := none } _⟩
  | dead err =>
    exact .inr ⟨_, transact_eq { w with running := none }
      fun db => LnCtx.onDead ⟨env, w.now, none⟩ e err (db.finish e)⟩
  | done r =>
    unfold LnWorld.turn
    dsimp only
    split
    · exact .inr ⟨_, rfl⟩
    · exact .inr ⟨_, transact_eq _ _⟩

/-- **A turn keeps soundness.** -/
theorem sound_turn (h : Sound env w) {t : LnTurn} (ht : TakesTurn env w i e t w')
    (htrack : ∀ order bolt11 info, t = .await (.payoutTrack order bolt11 info) →
      getOrder order.orderId w.db = some order ∧ order.sponsorInvoice = some bolt11 ∧
        order.disbursed = false)
    (hpay : ∀ order bolt11 info, t = .await (.payoutPay order bolt11 info) →
      PayCaptured w.now w.db order bolt11 info ∧ w.now + 30 < info.expiresAt) :
    Sound env w' := by
  obtain ⟨he, hfact, rfl⟩ := ht
  have hm := moved_turn h.ledger.agree he hfact
  rcases turn_cases env w e t with ⟨a, rfl⟩ | ⟨db, hdb⟩
  · refine ⟨h.ledger, h.named, ?_, h.polled, ?_, ?_, ?_⟩
    · rintro _ _ _ ⟨⟩
      exact ⟨hfact, fun _ _ _ hb => by cases hb⟩
    · cases a with
      | payoutPay order bolt11 info =>
        obtain ⟨hc, hlt⟩ := hpay order bolt11 info rfl
        exact payLedger_payoutPay h.pay.ledger hfact.2 hc hlt
      | _ => exact h.pay.ledger
    · rintro _ order bolt11 info _ ⟨⟩
      obtain ⟨ho, hb, hd⟩ := htrack order bolt11 info rfl
      exact ⟨order, ho, .inl hb, fun hd' => by rw [hd] at hd'; cases hd'⟩
    · rintro _ _ _ _ _ ⟨⟩
  · rw [hdb] at hm ⊢
    exact ⟨h.ledger.moved hm, h.named, (fun _ _ _ hr => by cases hr), h.polled,
      PayLedger.moved (w := w) hm h.ledger h.pay.ledger, (fun _ _ _ _ _ hr => by cases hr),
      fun _ _ _ _ _ hr => by cases hr⟩

/-- The payments change, without one of the daemon's being new or coming back to life. -/
theorem sound_payments (h : Sound env w) {payments : List Payment}
    (hpay : ∀ q ∈ payments, (∃ p ∈ w.payments, p.orderId = q.orderId ∧
      p.paymentHash = q.paymentHash ∧ (p.status = .failed → q.status = .failed)) ∨
      q.orderId = none) : Sound env { w with payments := payments } := by
  have hold : ∀ q ∈ payments, ∀ id, q.orderId = some id → ∃ p ∈ w.payments, p.orderId = some id ∧
      p.paymentHash = q.paymentHash ∧ (p.status = .failed → q.status = .failed) := by
    intro q hq id hid
    rcases hpay q hq with ⟨p, hp, hpid, hrest⟩ | hn
    · exact ⟨p, hp, hpid.trans hid, hrest⟩
    · rw [hn] at hid
      cases hid
  refine ⟨h.ledger, h.named, h.running, h.polled, ⟨⟨?_, ?_⟩, h.pay.captured, ?_⟩⟩
  · intro q hq id hid hlive
    obtain ⟨p, hp, hpid, hhash, hf⟩ := hold q hq id hid
    obtain ⟨o, b, info, ho, hpay, hb, hread, hh⟩ :=
      h.pay.ledger.current p hp id hpid fun hfail => hlive (hf hfail)
    exact ⟨o, b, info, ho, hpay, hb, hread, hhash.symm.trans hh⟩
  · intro id o ho hexp
    obtain ⟨hpay, hidle, hrest⟩ := h.pay.ledger.expired id o ho hexp
    refine ⟨hpay, fun q hq hid => ?_, hrest⟩
    obtain ⟨p, hp, hpid, -, hf⟩ := hold q hq id hid
    exact hf (hidle p hp hpid)
  · intro e order bolt11 info status hr hst q hq hid hhash
    obtain ⟨p, hp, hpid, hph, hf⟩ := hold q hq _ hid
    exact hf (h.pay.tracked _ _ _ _ _ hr hst p hp hpid (hph.trans hhash))

/-- The node finishes a payment that is in flight. -/
theorem mem_set_cases {payments : List Payment} {index : ℕ} {p q : Payment} {status : PayStatus}
    (hp : payments[index]? = some p) (hlive : p.status = .inFlight)
    (hq : q ∈ payments.set index { p with status := status }) :
    ∃ p' ∈ payments, p'.orderId = q.orderId ∧ p'.paymentHash = q.paymentHash ∧
      (p'.status = .failed → q.status = .failed) := by
  rcases List.mem_or_eq_of_mem_set hq with hq | rfl
  · exact ⟨q, hq, rfl, rfl, fun h => h⟩
  · exact ⟨p, List.mem_of_getElem? hp, rfl, rfl, fun h => by rw [hlive] at h; cases h⟩

/-- What the node may answer about a payment says nothing about a call. -/
theorem not_node_of_mayAnswer {payments : List Payment} {a : LnAwait} {b : NodeAnswer} :
    ¬ LnWorld.mayAnswer payments a (.node b) := by
  cases a <;> exact fun h => h

/-- **Soundness is kept by every step.** -/
theorem sound_step (h : Sound env w) (hs : LnWorld.step env w i = some w') : Sound env w' := by
  have hm := step_moved h hs
  cases i with
  | tick seconds =>
    obtain rfl := Option.some.inj hs
    refine ⟨h.ledger, h.named, h.running, h.polled, ⟨⟨h.pay.ledger.current, ?_⟩, ?_,
      h.pay.tracked⟩⟩
    · intro id o ho hexp
      obtain ⟨hpay, hidle, b, info, hb, hread, hlt⟩ := h.pay.ledger.expired id o ho hexp
      exact ⟨hpay, hidle, b, info, hb, hread, by dsimp only; omega⟩
    · intro e order bolt11 info ans hr
      obtain ⟨o, ho, hb, hd⟩ := h.pay.captured e order bolt11 info ans hr
      exact ⟨o, ho, hb.imp_right fun hlt => by dsimp only; omega, hd⟩
  | request action event price =>
    obtain rfl := Option.some.inj hs
    exact sound_transact h rfl hm
  | command cmd orderId version price =>
    obtain rfl := Option.some.inj hs
    exact sound_transact h rfl hm
  | configSet settings =>
    obtain rfl := Option.some.inj hs
    exact sound_quiet h rfl hm (fun _ hp => hp) w.observed
  | clock height price =>
    obtain rfl := Option.some.inj hs
    rw [transact_eq]
    exact sound_quiet h rfl hm (fun _ hp => hp) w.observed
  | poll hash =>
    simp only [LnWorld.step] at hs
    split at hs
    · obtain rfl := Option.some.inj hs
      refine ⟨h.ledger, h.named, h.running, ?_, h.pay.ledger, h.pay.captured, h.pay.tracked⟩
      rintro _ ⟨⟩ l hl
      have := lookupFact_self w.node hash
      rwa [show w.node.lookupInvoice hash = some l from hl] at this
    · cases hs
  | observe =>
    simp only [LnWorld.step] at hs
    split at hs
    · cases hs
    · split at hs
      · obtain rfl := Option.some.inj hs
        exact sound_quiet h rfl hm (fun _ hp => by cases hp) _
      · obtain rfl := Option.some.inj hs
        exact sound_quiet h rfl hm (fun _ hp => by cases hp) w.observed
  | start e =>
    have ht := takesTurn_start h hs
    refine sound_turn h ht (fun order bolt11 info htrack => ?_) fun order bolt11 info hpay => ?_
    · have he := ht.fact
      rw [htrack] at he
      exact payoutTrack_of_start h.ledger.order he.1 htrack
    · exfalso
      have he := ht.fact
      rw [hpay] at he
      exact not_payoutPay_of_start h.ledger.order he.1 hpay
  | resume =>
    obtain ⟨e, a, ans, hr, ht⟩ := takesTurn_resume h hs
    have hrun := (h.running e a _ hr).1
    refine sound_turn h ht (fun order bolt11 info htrack => ?_) fun order bolt11 info hpay => ?_
    · have he := ht.fact
      rw [htrack] at he
      exact absurd htrack (not_payoutTrack_of_resume hrun he.1)
    · have he := ht.fact
      rw [hpay] at he
      obtain ⟨rfl, -, -, hlt⟩ := payoutPay_of_resume hrun he.1 hpay
      exact ⟨h.pay.captured _ _ _ _ _ hr, hlt⟩
  | crash =>
    obtain rfl := Option.some.inj hs
    exact ⟨h.ledger, h.named, (fun _ _ _ hr => by cases hr), (fun _ hp => by cases hp),
      h.pay.ledger, (fun _ _ _ _ _ hr => by cases hr), fun _ _ _ _ _ hr => by cases hr⟩
  | serve fault bolt11 =>
    simp only [LnWorld.step] at hs
    split at hs
    · rename_i e a hr
      split at hs
      · cases hs
      · rename_i call hcall
        obtain rfl := Option.some.inj hs
        exact sound_serve h hr hcall _
    · cases hs
  | answer ans =>
    simp only [LnWorld.step] at hs
    split at hs
    · rename_i e a hr
      split at hs
      · rename_i hmay
        obtain rfl := Option.some.inj hs
        refine ⟨h.ledger, h.named, ?_, h.polled, h.pay.ledger, ?_, ?_⟩
        · rintro _ _ _ ⟨⟩
          refine ⟨(h.running e a _ hr).1, ?_⟩
          rintro call b - ⟨⟩
          exact absurd hmay not_node_of_mayAnswer
        · rintro _ _ _ _ _ ⟨⟩
          exact h.pay.captured _ _ _ _ _ hr
        · rintro _ _ _ info status ⟨⟩ hst p hp - hhash
          rcases hst with rfl | rfl <;> exact hmay p hp hhash
      · cases hs
    · cases hs
  | accept hash height =>
    obtain ⟨n, hn, rfl⟩ := Option.map_eq_some_iff.mp hs
    exact sound_drift h (LnNode.drifts_accept hn)
  | expire hash =>
    obtain ⟨n, hn, rfl⟩ := Option.map_eq_some_iff.mp hs
    exact sound_drift h (LnNode.drifts_expire hn)
  | resolve index status =>
    simp only [LnWorld.step] at hs
    split at hs
    · rename_i p hp
      split at hs
      · rename_i hlive
        obtain rfl := Option.some.inj hs
        exact sound_payments h fun q hq => .inl (mem_set_cases hp hlive.1 hq)
      · cases hs
    · cases hs
  | payByHand hash =>
    obtain rfl := Option.some.inj hs
    refine sound_payments h fun q hq => ?_
    rcases List.mem_append.mp hq with hq | hq
    · exact .inl ⟨q, hq, rfl, rfl, fun h => h⟩
    · obtain rfl := List.mem_singleton.mp hq
      exact .inr rfl
  | otherTrack p =>
    simp only [LnWorld.step] at hs
    split at hs
    · cases hs
    · obtain rfl := Option.some.inj hs
      exact sound_transact h rfl hm

end Keeps

theorem sound_init (env : LnEnv) (now : ℤ) : Sound env (LnWorld.initial now) where
  ledger :=
    { agree := by intro h r hr; cases hr
      noDraft := by intro id ho; exact absurd rfl ho
      order := by intro id o ho; cases ho
      lateSettle := by intro h hmem; cases hmem }
  named := by intro h inv hinv; cases hinv
  running := by intro e a ans hr; cases hr
  polled := by intro p hp; cases hp
  pay :=
    { ledger := ⟨(by intro p hp; cases hp), (by intro id o ho; cases ho)⟩
      captured := by intro e order b i ans hr; cases hr
      tracked := by intro e id o b i hr; cases hr }

/-- **Every reachable world is sound.** -/
theorem sound_of_reachable (hw : (lnSystem env).Reachable w) : Sound env w := by
  refine TransitionSystem.invariant (P := Sound env) ?_ ?_ hw
  · rintro _ ⟨now, rfl⟩
    exact sound_init env now
  · intro a i b _ ha hs
    exact sound_step ha hs

end LnPay
